import QueryHarvest.Settings.EnvFile
import QueryHarvest.Text.Pattern

/-! # Environments

The variables that settings are taken from: those of the process, and those of an environment file
that the process does not have. Values in the file may refer to variables. -/

namespace QueryHarvest

open Text EnvFile

abbrev Environment := List (String × String)

/-- Why a binding cannot become a variable. -/
inductive EnvironmentError where
  | nulCharacter
  | equalsSignInName
  deriving DecidableEq, Repr

def EnvironmentError.message : EnvironmentError → String
  | .nulCharacter => "embedded null byte"
  | .equalsSignInName => "illegal environment variable name"

namespace Environment

/-- A reference to a variable, with the text to take where there is none. -/
structure Reference where
  name : List Char
  default : List Char

/-- Read a reference `${NAME}` or `${NAME:-default}` behind its opening brace. -/
def closeReference? (c : Cursor) : Option (Reference × Cursor) :=
  let (name, after) := c.span fun x => x != '\x7d' && x != ':'
  match after.rest with
  | '\x7d' :: rest => some (⟨name, []⟩, ⟨some '\x7d', rest⟩)
  | ':' :: '-' :: rest =>
    let (default, last) := (⟨some '-', rest⟩ : Cursor).span (· != '\x7d')
    match last.rest with
    | '\x7d' :: rest => some (⟨name, default⟩, ⟨some '\x7d', rest⟩)
    | _ => none
  | _ => none

theorem length_closeReference? {c after : Cursor} {r : Reference}
    (h : closeReference? c = some (r, after)) : after.rest.length < c.rest.length := by
  unfold closeReference? at h
  have hname := Cursor.length_span (fun x => x != '\x7d' && x != ':') c
  simp only at h
  split at h
  · next hr =>
    cases h
    simp only [hr, List.length_cons] at hname
    simp only
    omega
  · next rest hr =>
    have hdefault := Cursor.length_span (· != '\x7d') ⟨some '-', rest⟩
    simp only [hr, List.length_cons] at hname
    split at h
    · next hl =>
      cases h
      simp only [hl, List.length_cons] at hdefault
      simp only
      omega
    · contradiction
  · contradiction

def referencePattern : Pattern Reference where
  match? c :=
    match c.rest with
    | '$' :: '\x7b' :: rest => closeReference? ⟨some '\x7b', rest⟩
    | _ => none
  shrinks h := by
    split at h
    · next hr =>
      have := length_closeReference? h
      simp only at this
      simp only [hr, List.length_cons]
      omega
    · contradiction

def expand (value? : String → Option String) (text : String) : String :=
  String.ofList ((referencePattern.cut (Cursor.start text.toList)).flatMap fun
    | .inl c => [c]
    | .inr found => ((value? (String.ofList found.value.name)).map String.toList).getD found.value.default)

/-- The value of a variable among bindings, the last of which come first; a name without a value has
the empty text. -/
def boundValue? (bindings : List Binding) (name : String) : Option String :=
  (bindings.find? (·.name == name)).map fun b => b.value.getD ""

/-- Expand the references in bindings, one after the other. The process's own variables come before
the earlier bindings. The result begins with the last binding. -/
def expandOnto (own : Environment) (earlier : List Binding) : List Binding → List Binding
  | [] => earlier
  | b :: rest =>
    let value? := fun name => own.lookup name <|> boundValue? earlier name
    expandOnto own ({ b with value := b.value.map (expand value?) } :: earlier) rest

/-- The bindings that hold, each name once: the last of equal names. They come in the order in which
the names first appear. -/
def effective (bindings : List Binding) : List Binding :=
  let names := (bindings.map (·.name)).eraseDups
  names.filterMap fun name => bindings.reverse.find? (·.name == name)

def bindingError? (name value : String) : Option EnvironmentError :=
  if name.contains '\x00' || value.contains '\x00' then some .nulCharacter
  else if name.contains '=' then some .equalsSignInName
  else none

/-- Add bindings that have a value and whose name is new. -/
def addBindings (environment : Environment) : List Binding → Except EnvironmentError Environment
  | [] => .ok environment
  | b :: rest =>
    match b.value with
    | none => environment.addBindings rest
    | some value =>
      if (environment.lookup b.name).isSome then environment.addBindings rest
      else
        match bindingError? b.name value with
        | some error => .error error
        | none => Environment.addBindings (environment ++ [(b.name, value)]) rest

/-- The variables of a process, with those of an environment file. -/
def withFile (own : Environment) (text : String) : Except EnvironmentError Environment :=
  own.addBindings (effective (expandOnto own [] (bindings text)).reverse)

end Environment

end QueryHarvest
