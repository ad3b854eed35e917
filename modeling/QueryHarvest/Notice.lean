/-! # Notices

What a run has to say about itself beside its result. -/

namespace QueryHarvest

/-- How much a notice matters. -/
inductive Severity where
  | debug
  | info
  | warning
  | error
  | critical
  deriving DecidableEq, Repr

namespace Severity

def name : Severity → String
  | .debug => "DEBUG"
  | .info => "INFO"
  | .warning => "WARNING"
  | .error => "ERROR"
  | .critical => "CRITICAL"

def all : List Severity := [.debug, .info, .warning, .error, .critical]

def ofName? (name : String) : Option Severity :=
  all.find? fun severity => severity.name == name

def level : Severity → Nat
  | .debug => 10
  | .info => 20
  | .warning => 30
  | .error => 40
  | .critical => 50

end Severity

/-- A notice: a severity and a text. -/
structure Notice where
  severity : Severity
  message : String
  deriving DecidableEq, Repr

/-- Something together with what was noticed on the way to it. -/
structure Noted (α : Type) where
  value : α
  notices : List Notice := []

def Notice.line (n : Notice) : String :=
  n.severity.name ++ " " ++ n.message

end QueryHarvest
