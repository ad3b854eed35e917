import QueryHarvest.Text.Pattern
import QueryHarvest.Value.Basic

/-! # Parameter markers

Drivers mark the places of parameters in different ways: `?`, `%s`, `:1`, `:name` or `%(name)s`. Here
every statement is brought to one way, `$1`, `$2` and so on, with the parameters in that order. What
stands inside a literal is no marker. -/

namespace QueryHarvest.Capture

open Text

/-- Read the rest of a literal behind its opening quote. A doubled quote goes on; when the literal is
never closed, it ends at the first quote of the last doubled pair, the `fallback`. The characters read
come newest first. -/
def closeLiteral? (fallback : Option (List Char × List Char)) (read : List Char) :
    List Char → Option (List Char × List Char)
  | [] => fallback
  | '\x27' :: '\x27' :: rest =>
    closeLiteral? (some ('\x27' :: read, '\x27' :: rest)) ('\x27' :: '\x27' :: read) rest
  | '\x27' :: rest => some ('\x27' :: read, rest)
  | c :: rest => closeLiteral? fallback (c :: read) rest

theorem length_closeLiteral? {n : Nat} {fallback : Option (List Char × List Char)}
    {read text read' rest' : List Char}
    (hf : ∀ r s, fallback = some (r, s) → s.length ≤ n) (hn : text.length ≤ n)
    (h : closeLiteral? fallback read text = some (read', rest')) : rest'.length ≤ n := by
  fun_induction closeLiteral? fallback read text with
  | case1 => exact hf _ _ h
  | case2 fallback read rest ih =>
    simp only [List.length_cons] at hn
    refine ih ?_ (by omega) h
    intro r s hs
    cases hs
    simp only [List.length_cons]
    omega
  | case3 fallback read rest hne =>
    cases h
    simp only [List.length_cons] at hn
    omega
  | case4 fallback read c rest h₁ h₂ ih =>
    simp only [List.length_cons] at hn
    exact ih hf (by omega) h

def literalPattern : Pattern (List Char) where
  match? c :=
    match c.rest with
    | '\x27' :: rest =>
      (closeLiteral? none ['\x27'] rest).map fun (read, rest) => (read.reverse, ⟨some '\x27', rest⟩)
    | _ => none
  shrinks h := by
    split at h
    · next rest hr =>
      obtain ⟨⟨read, after⟩, hc, heq⟩ := Option.map_eq_some_iff.1 h
      cases heq
      have := length_closeLiteral? (n := rest.length) (by simp) (Nat.le_refl _) hc
      simp only [hr, List.length_cons]
      omega
    · contradiction

/-- A stretch of a statement: a literal, or what stands between literals. -/
inductive Stretch where
  | outside (text : List Char)
  | literal (text : List Char)

/-- Put one more character or literal in front of some stretches. -/
def stretchStep : Char ⊕ Match (List Char) → List Stretch → List Stretch
  | .inr found, stretches => .literal found.value :: stretches
  | .inl c, .outside text :: rest => .outside (c :: text) :: rest
  | .inl c, stretches => .outside [c] :: stretches

def stretches (statement : List Char) : List Stretch :=
  (literalPattern.cut (Cursor.start statement)).foldr stretchStep []

/-- A statement as characters and markers. Each stretch between literals is searched on its own. -/
def marked {α : Type} (markers : Pattern α) (statement : List Char) : List (Char ⊕ α) :=
  (stretches statement).flatMap fun
    | .literal text => text.map .inl
    | .outside text => (markers.cut (Cursor.start text)).map fun
      | .inl c => .inl c
      | .inr found => .inr found.value

/-- A marker of a parameter by its place: the next one, or one with a number. -/
inductive Marker where
  | next
  | numbered (digits : List Char)
  deriving DecidableEq, Repr

/-- A marker of a parameter by its name. -/
inductive NamedMarker where
  /-- `%(name)s` -/
  | percent (name : List Char)
  /-- `:name` -/
  | colon (name : List Char)
  deriving DecidableEq, Repr

namespace NamedMarker

def name : NamedMarker → List Char
  | .percent name => name
  | .colon name => name

def spelling : NamedMarker → List Char
  | .percent name => '%' :: '(' :: name ++ [')', 's']
  | .colon name => ':' :: name

end NamedMarker

/-- May a colon open a marker behind a character? Behind a colon it belongs to a cast, and behind a
word character to that word. -/
def colonOpens : Option Char → Bool
  | some c => c != ':' && !isWord c
  | none => true

def markerPattern : Pattern Marker where
  match? c :=
    match c.rest with
    | '%' :: 's' :: rest => some (.next, ⟨some 's', rest⟩)
    | '?' :: rest => some (.next, ⟨some '?', rest⟩)
    | ':' :: rest =>
      if colonOpens c.before then
        ((⟨some ':', rest⟩ : Cursor).span1? isDigit).map fun (digits, after) => (.numbered digits, after)
      else none
    | _ => none
  shrinks {c after a} h := by
    split at h
    · next hr =>
      cases h
      simp only [hr, List.length_cons]
      omega
    · next hr =>
      cases h
      simp only [hr, List.length_cons]
      omega
    · next rest hr =>
      split at h
      · obtain ⟨⟨digits, after⟩, hs, heq⟩ := Option.map_eq_some_iff.1 h
        cases heq
        have := Cursor.length_span1? hs
        simp only [hr, List.length_cons]
        simp only at this
        omega
      · contradiction
    · contradiction

/-- Read the rest of a marker behind its opening parenthesis. -/
def closePercent? (c : Cursor) : Option (NamedMarker × Cursor) :=
  (c.span1? isWord).bind fun (name, after) =>
    match after.rest with
    | ')' :: 's' :: rest => some (.percent name, ⟨some 's', rest⟩)
    | _ => none

/-- Read the name of a marker behind its colon: a word that begins with an ASCII letter or an
underscore. -/
def closeColon? (c : Cursor) : Option (NamedMarker × Cursor) :=
  (c.span1? isWord).bind fun (name, after) =>
    if name.head?.any fun x => x.isAlpha || x == '_' then some (.colon name, after) else none

theorem length_closePercent? {c after : Cursor} {m : NamedMarker}
    (h : closePercent? c = some (m, after)) : after.rest.length < c.rest.length := by
  obtain ⟨⟨name, next⟩, hs, h⟩ := Option.bind_eq_some_iff.1 h
  have := Cursor.length_span1? hs
  simp only at h
  split at h
  · next rest hr =>
    cases h
    simp only [hr, List.length_cons] at this
    simp only
    omega
  · contradiction

theorem length_closeColon? {c after : Cursor} {m : NamedMarker}
    (h : closeColon? c = some (m, after)) : after.rest.length < c.rest.length := by
  obtain ⟨⟨name, next⟩, hs, h⟩ := Option.bind_eq_some_iff.1 h
  have := Cursor.length_span1? hs
  simp only at h
  split at h
  · cases h
    exact this
  · contradiction

def namedMarkerPattern : Pattern NamedMarker where
  match? c :=
    match c.rest with
    | '%' :: '(' :: rest => closePercent? ⟨some '(', rest⟩
    | ':' :: rest => if colonOpens c.before then closeColon? ⟨some ':', rest⟩ else none
    | _ => none
  shrinks h := by
    split at h
    · next hr =>
      have := length_closePercent? h
      simp only [hr, List.length_cons]
      simp only at this
      omega
    · next hr =>
      split at h
      · have := length_closeColon? h
        simp only [hr, List.length_cons]
        simp only at this
        omega
      · contradiction
    · contradiction

def dollar (n : Nat) : List Char :=
  '$' :: (toString n).toList

/-- Number the markers by place; `count` of them came before. -/
def numberMarkers (count : Nat) : List (Char ⊕ Marker) → List Char
  | [] => []
  | .inl c :: rest => c :: numberMarkers count rest
  | .inr .next :: rest => dollar (count + 1) ++ numberMarkers (count + 1) rest
  | .inr (.numbered digits) :: rest => '$' :: digits ++ numberMarkers count rest

/-- Number the markers by name: names are numbered as they first appear, and unknown ones stay. The
names in their order come with the text. -/
def numberNames (isKnown : String → Bool) (order : List String) :
    List (Char ⊕ NamedMarker) → List Char × List String
  | [] => ([], order)
  | .inl c :: rest =>
    let (text, order) := numberNames isKnown order rest
    (c :: text, order)
  | .inr marker :: rest =>
    let name := String.ofList marker.name
    if isKnown name then
      let order := if order.contains name then order else order ++ [name]
      let (text, later) := numberNames isKnown order rest
      (dollar (order.idxOf name + 1) ++ text, later)
    else
      let (text, order) := numberNames isKnown order rest
      (marker.spelling ++ text, order)

/-- A value that holds no parameters. -/
inductive BindError where
  | notIterable (kind : String)
  deriving DecidableEq, Repr

def BindError.message : BindError → String
  | .notIterable kind => "'" ++ kind ++ "' object is not iterable"

/-- The parameters that a value holds one after the other: the items of a list, the characters of a
text, the numbers of bytes. -/
def itemsOf : Value → Except BindError (List Value)
  | .null => .error (.notIterable "NoneType")
  | .bool _ => .error (.notIterable "bool")
  | .int _ => .error (.notIterable "int")
  | .float _ => .error (.notIterable "float")
  | .decimal _ => .error (.notIterable "decimal.Decimal")
  | .uuid _ => .error (.notIterable "UUID")
  | .date _ => .error (.notIterable "datetime.date")
  | .time _ => .error (.notIterable "datetime.time")
  | .dateTime _ => .error (.notIterable "datetime.datetime")
  | .text s => .ok (s.toList.map fun c => .text (String.ofList [c]))
  | .bytes data => .ok (data.map fun b => .int b.toNat)
  | .buffer data => .ok (data.map fun b => .int b.toNat)
  | .list items => .ok items
  | .tuple items => .ok items
  | .object fields => .ok (fields.map fun field => .text field.1)

/-- Bring a statement to numbered markers, with its parameters in their order. An object gives its
fields by name. -/
def bindParameters (statement : String) (parameters : Value) : Except BindError (String × List Value) :=
  if parameters.isVoid then .ok (statement, [])
  else
    match parameters with
    | .object fields =>
      let isKnown := fun name => (fields.lookup name).isSome
      let (text, order) := numberNames isKnown [] (marked namedMarkerPattern statement.toList)
      .ok (String.ofList text, order.filterMap fun name => fields.lookup name)
    | parameters => do
      let items ← itemsOf parameters
      return (String.ofList (numberMarkers 0 (marked markerPattern statement.toList)), items)

end QueryHarvest.Capture
