import QueryHarvest.Command.Reading
import QueryHarvest.Target.Basic

/-! # The commands

`analyze` shows what a query log filters, `generate` extracts that part of a database, `install` and
`uninstall` care for the subsetting tool, and `check` looks at what a run needs. -/

namespace QueryHarvest

/-- A command with its arguments. -/
inductive Command where
  | analyze (input : String) (raw : Bool)
  | generate (input output : String) (database : Target.Choice) (allConditions : Bool)
  | install
  | uninstall
  | check (url : Option String)
  deriving DecidableEq, Repr

end QueryHarvest

namespace QueryHarvest.Command

def name : Command → String
  | .analyze .. => "analyze"
  | .generate .. => "generate"
  | .install => "install"
  | .uninstall => "uninstall"
  | .check _ => "check"

/-- The arguments of a run. -/
structure Arguments where
  envFile : Option String
  command : Command
  deriving DecidableEq, Repr

def helpFlag : Flag := ⟨["-h", "--help"], .help⟩

def valued (spellings : List String) : Flag := ⟨spellings, .valued⟩

def switch (spelling : String) : Flag := ⟨[spelling], .switch⟩

def mainGrammar : Grammar where
  program := "seedify"
  flags := [helpFlag, valued ["--env-file"]]
  operand := .choice "command" ["analyze", "generate", "install", "uninstall", "check"]

/-- The command line behind the name of a command. -/
def commandGrammar (name : String) : Grammar where
  program := "seedify " ++ name
  flags := helpFlag :: match name with
    | "analyze" => [switch "--raw"]
    | "generate" => [valued ["-o", "--output"], valued ["--db-url"], valued ["--db-host"],
        valued ["--db-port"], valued ["--db-name"], valued ["--db-user"], valued ["--db-password"],
        switch "--all-conditions"]
    | "check" => [valued ["--db-url"]]
    | _ => []
  operand := match name with
    | "analyze" => .word "input_file"
    | "generate" => .word "input_file"
    | _ => .nothing

/-- Where the subset is written, unless told otherwise. -/
def defaultOutput : String := "./output/seed.sql"

def choiceOf (l : Line) : Target.Choice where
  url := l.value? "--db-url"
  host := l.value? "--db-host"
  port := l.value? "--db-port"
  name := l.value? "--db-name"
  user := l.value? "--db-user"
  password := l.value? "--db-password"

def commandOf (name : String) (l : Line) : Command :=
  let input := l.operand.headD ""
  match name with
  | "analyze" => .analyze input (l.has "--raw")
  | "generate" =>
    .generate input ((l.value? "--output").getD defaultOutput) (choiceOf l) (l.has "--all-conditions")
  | "install" => .install
  | "uninstall" => .uninstall
  | _ => .check (l.value? "--db-url")

/-- Read the arguments of a run. What is left over of both command lines is looked at last. -/
def Arguments.read (arguments : List String) : Except Stop Arguments := do
  let outer ← mainGrammar.read arguments
  let name := outer.operand.headD ""
  let inner ← (commandGrammar name).read (outer.operand.drop 1)
  let leftover := outer.leftover ++ inner.leftover
  if leftover.isEmpty then return ⟨outer.value? "--env-file", commandOf name inner⟩
  else throw (.misuse mainGrammar.program (.unrecognized leftover))

end QueryHarvest.Command
