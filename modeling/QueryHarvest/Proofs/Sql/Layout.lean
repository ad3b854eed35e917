import QueryHarvest.Proofs.Sql.NormalForm
import QueryHarvest.Proofs.Text.Characters

/-! # Layout of a statement

A statement is a row of tokens. How it is laid out is a matter of what stands between them: blanks, and
among those comments.
-/

namespace QueryHarvest.Sql

open Text

/-- Characters of names, numbers, placeholders, comparisons and lists. -/
def isTokenChar (c : Char) : Bool :=
  c.isAlphanum || ['_', '.', ',', '(', ')', '=', '<', '>', '!', '*', '$'].contains c

/-- Are all the characters those of tokens, with a digit behind every dollar sign? -/
def isTokenText : List Char → Bool
  | [] => true
  | c :: rest => isTokenChar c && (c != '$' || rest.head?.any Char.isDigit) && isTokenText rest

structure Token where
  letters : List Char
  nonempty : letters ≠ []
  isTokenText : isTokenText letters

def Token.text (t : Token) : String := String.ofList t.letters

theorem ascii_of_isTokenChar {c : Char} (h : isTokenChar c) : c.toNat < 128 := by
  rcases Bool.or_eq_true_iff.mp h with letter | mark
  · exact ascii_of_isAlphanum letter
  · have low : ['_', '.', ',', '(', ')', '=', '<', '>', '!', '*', '$'].all (·.toNat < 128) := by decide
    simpa using List.all_eq_true.mp low c (by simpa using mark)

theorem isTokenChar_of_mem {letters : List Char} (h : isTokenText letters) :
    ∀ c ∈ letters, isTokenChar c := by
  induction letters with
  | nil => simp
  | cons c letters ih =>
      simp only [isTokenText, Bool.and_eq_true] at h
      exact List.forall_mem_cons.mpr ⟨h.1.1, ih h.2⟩

theorem Token.visible (t : Token) : ∀ c ∈ t.letters, isBlank c = false := by
  intro c member
  have char := isTokenChar_of_mem t.isTokenText c member
  have visible : isTokenChar c → isBlank c = false :=
    of_ascii (ascii_of_isTokenChar char) (by decide +kernel)
  exact visible char

/-- A comment between marks. One that begins with a plus sign would be a hint. -/
structure BlockComment where
  body : List Char
  unclosed : ¬ ['*', '/'] <:+: body
  plain : body.head? ≠ some '+'

def BlockComment.spelled (c : BlockComment) : List Char :=
  '/' :: '*' :: (c.body ++ ['*', '/'])

/-- A comment that goes on as long as the line does. -/
structure LineComment where
  body : List Char
  whole : '\r' ∉ body ∧ '\n' ∉ body
  plain : body.head? ≠ some '+'

def LineComment.spelled (c : LineComment) : List Char :=
  '-' :: '-' :: c.body

inductive LineEnd where
  | feed
  | carriageReturn
  | both

def LineEnd.spelled : LineEnd → List Char
  | .feed => ['\n']
  | .carriageReturn => ['\r']
  | .both => ['\r', '\n']

inductive Filler where
  | blank (c : Char) (isBlank : isBlank c)
  | block (comment : BlockComment)
  | line (comment : LineComment) (ends : LineEnd)

def Filler.spelled : Filler → List Char
  | .blank c _ => [c]
  | .block comment => comment.spelled
  | .line comment ends => comment.spelled ++ ends.spelled

/-- A blank with blanks and comments behind it. -/
structure Separator where
  first : Char
  isBlank : isBlank first
  others : List Filler

def Separator.spelled (s : Separator) : List Char :=
  s.first :: s.others.flatMap Filler.spelled

/-- Tokens with separators between them, perhaps with one before and one behind. The text may end in
a comment whose line does not. -/
structure Layout where
  leading : Option Separator
  first : Token
  others : List (Separator × Token)
  trailing : Option Separator
  cutOff : Option LineComment

namespace Layout

def tokens (l : Layout) : List Token :=
  l.first :: l.others.map Prod.snd

/-- What stands behind the last token. -/
def ending (l : Layout) : List Char :=
  (l.trailing.elim [] Separator.spelled) ++ l.cutOff.elim [] LineComment.spelled

/-- Further tokens, each behind its separator, in front of the end of the text. -/
def spelledOthers (ending : List Char) : List (Separator × Token) → List Char
  | [] => ending
  | (separator, token) :: others => separator.spelled ++ (token.letters ++ spelledOthers ending others)

def spelled (l : Layout) : List Char :=
  l.leading.elim [] Separator.spelled ++ (l.first.letters ++ spelledOthers l.ending l.others)

def text (l : Layout) : String := String.ofList l.spelled

end Layout

/-- Some characters all of which are blank. -/
def Blanks (text : List Char) : Prop := ∀ c ∈ text, isBlank c

theorem blanks_nil : Blanks [] := by
  simp [Blanks]

theorem blanks_singleton {c : Char} (h : isBlank c) : Blanks [c] := by
  simpa [Blanks] using h

theorem Blanks.append {text text' : List Char} (h : Blanks text) (h' : Blanks text') :
    Blanks (text ++ text') :=
  fun c member => (List.mem_append.mp member).elim (h c) (h' c)

theorem Blanks.reverse {text : List Char} (h : Blanks text) : Blanks text.reverse :=
  fun c member => h c (List.mem_reverse.mp member)

/-- Tokens with blanks between each two of them, and perhaps behind the last. -/
inductive Spaced : List Token → List Char → Prop where
  | last (token : Token) {blanks : List Char} (h : Blanks blanks) :
      Spaced [token] (token.letters ++ blanks)
  | cons (token : Token) {tokens : List Token} {blanks text : List Char} (h : Blanks blanks)
      (nonempty : blanks ≠ []) (others : Spaced tokens text) :
      Spaced (token :: tokens) (token.letters ++ (blanks ++ text))

/-- Tokens with single spaces between them. -/
def joined (tokens : List Token) : List Char :=
  [' '].intercalate (tokens.map Token.letters)

theorem Token.stops (t : Token) (rest : List Char) : Stops isBlank (t.letters ++ rest) := by
  cases letters : t.letters with
  | nil => exact absurd letters t.nonempty
  | cons c others => exact stops_cons (t.visible c (by simp [letters]))

theorem collapse_blanks {blanks : List Char} (h : Blanks blanks) (nonempty : blanks ≠ [])
    {text : List Char} (stops : Stops isBlank (collapse text)) :
    collapse (blanks ++ text) = ' ' :: collapse text := by
  induction blanks with
  | nil => contradiction
  | cons c blanks ih =>
      have blank : isBlank c := h c (List.mem_cons_self ..)
      rw [List.cons_append, collapse_cons]
      cases blanks with
      | nil => exact collapseStep_blank blank stops
      | cons d blanks =>
          rw [ih (fun x member => h x (List.mem_cons_of_mem _ member)) (by simp)]
          unfold collapseStep
          rw [if_pos blank]
          rfl

/-- Leading blanks collapse to one at most. -/
theorem collapse_leading {blanks : List Char} (h : Blanks blanks) (text : List Char)
    (stops : Stops isBlank (collapse text)) :
    ∃ before, Blanks before ∧ collapse (blanks ++ text) = before ++ collapse text := by
  by_cases none : blanks = []
  · exact ⟨[], blanks_nil, by simp [none]⟩
  · exact ⟨[' '], blanks_singleton rfl, collapse_blanks h none stops⟩

theorem joined_stops (token : Token) (tokens : List Token) (rest : List Char) :
    Stops isBlank (joined (token :: tokens) ++ rest) := by
  rw [joined, List.map_cons, intercalate_cons, List.append_assoc]
  exact token.stops _

/-- Collapsing leaves tokens with single spaces between them. -/
theorem Spaced.collapse_eq {tokens : List Token} {text : List Char} (h : Spaced tokens text) :
    ∃ behind, Blanks behind ∧ collapse text = joined tokens ++ behind := by
  induction h with
  | @last token blanks h =>
      obtain ⟨behind, blank, collapsed⟩ := collapse_leading h [] (stops_nil _)
      refine ⟨behind, blank, ?_⟩
      rw [List.append_nil, show collapse [] = [] from rfl, List.append_nil] at collapsed
      rw [collapse_append token.visible, collapsed]
      simp [joined]
  | @cons token tokens blanks text h nonempty others ih =>
      obtain ⟨behind, blank, collapsed⟩ := ih
      refine ⟨behind, blank, ?_⟩
      cases others with
      | last next | cons next =>
          have stops := collapsed ▸ joined_stops next _ behind
          rw [collapse_append token.visible, collapse_blanks h nonempty stops, collapsed]
          simp [joined]

theorem joined_ends (first : Token) (others : List Token) :
    ∃ (before : List Char) (last : Token), joined (first :: others) = before ++ last.letters := by
  induction others generalizing first with
  | nil => exact ⟨[], first, by simp [joined]⟩
  | cons next others ih =>
      obtain ⟨before, last, ends⟩ := ih next
      exact ⟨first.letters ++ ' ' :: before, last, by
        rw [List.append_assoc, List.cons_append, ← ends]
        simp [joined]⟩

theorem joined_stops_reverse (first : Token) (others : List Token) :
    Stops isBlank (joined (first :: others)).reverse := by
  obtain ⟨before, last, ends⟩ := joined_ends first others
  rw [ends, List.reverse_append]
  cases letters : last.letters.reverse with
  | nil => exact absurd (List.reverse_eq_nil_iff.mp letters) last.nonempty
  | cons c others =>
      have inside : c ∈ last.letters := List.mem_reverse.mp (letters ▸ List.mem_cons_self ..)
      exact stops_cons (last.visible c inside)

theorem dropWhile_blanks {blanks text : List Char} (h : Blanks blanks) (stops : Stops isBlank text) :
    (blanks ++ text).dropWhile isBlank = text := by
  rw [List.dropWhile_append_of_pos h]
  cases text with
  | nil => rfl
  | cons c text => simp [stops c rfl]

/-- The blanks at both ends are dropped. -/
theorem trim_append {before text behind : List Char} (hbefore : Blanks before)
    (hbehind : Blanks behind) (front : Stops isBlank (text ++ behind))
    (back : Stops isBlank text.reverse) : trim (before ++ (text ++ behind)) = text := by
  rw [trim, dropWhile_blanks hbefore front, List.reverse_append, dropWhile_blanks hbehind.reverse back,
    List.reverse_reverse]

/-- Tokens with blanks around them come out with single spaces between them. -/
theorem Spaced.trim_collapse {tokens : List Token} {leading text : List Char} (h : Spaced tokens text)
    (blank : Blanks leading) : trim (collapse (leading ++ text)) = joined tokens := by
  obtain ⟨behind, hbehind, collapsed⟩ := h.collapse_eq
  obtain ⟨first, others, rfl⟩ : ∃ first others, tokens = first :: others := by
    cases h <;> exact ⟨_, _, rfl⟩
  have front := joined_stops first others behind
  obtain ⟨before, hbefore, led⟩ := collapse_leading blank _ (collapsed ▸ front)
  rw [led, collapsed, trim_append hbefore hbehind front (joined_stops_reverse first others)]

end QueryHarvest.Sql
