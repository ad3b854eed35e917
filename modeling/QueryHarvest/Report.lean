/-! # Reports

What the longer commands print: numbered steps with details, and a frame around the whole. A reporter
numbers the steps in turn. -/

namespace QueryHarvest

/-- One thing to report. -/
inductive Report where
  | header (message : String)
  | footer (message : String)
  | step (message : String)
  | detail (message : String)
  | success (message : String)
  | failure (message : String)
  deriving DecidableEq, Repr

/-- A reporter: how many steps there are in all, and how many have been begun. -/
structure Reporter where
  total : Nat := 0
  begun : Nat := 0
  deriving DecidableEq, Repr

def rule (mark : Char) : String :=
  String.ofList (List.replicate 50 mark)

def framed (mark : Char) (message : String) : String :=
  "\n" ++ rule mark ++ "\n  " ++ message ++ "\n" ++ rule mark ++ "\n"

namespace Reporter

/-- The reporter when something has been reported. -/
def after (r : Reporter) : Report → Reporter
  | .step _ => { r with begun := r.begun + 1 }
  | _ => r

/-- What is printed for something that is reported. -/
def text (r : Reporter) : Report → String
  | .header message => framed '=' message
  | .footer message => framed '-' message
  | .step message => s!"\n[{r.begun + 1}/{r.total}] {message}\n"
  | .detail message => "  " ++ message ++ "\n"
  | .success message => "  [OK] " ++ message ++ "\n"
  | .failure message => "  [FAIL] " ++ message ++ "\n"

/-- What is printed for each of some things that are reported in turn. -/
def texts (r : Reporter) : List Report → List String
  | [] => []
  | report :: rest => r.text report :: (r.after report).texts rest

end Reporter

end QueryHarvest
