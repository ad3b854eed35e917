import QueryHarvest.Proofs.Sql.Backtracking
import QueryHarvest.Proofs.Sql.Provenance
import QueryHarvest.Proofs.Sql.Sources

/-! # Runs of digits

The index of a placeholder and the digits of a literal are read as far as they go. Going back does not
cut them short either, since it finds the same predicates.
-/

namespace QueryHarvest.Sql

open Number Text

def Piece.isPlaceholder : Piece → Bool
  | .placeholder => true
  | _ => false

/-- How many placeholders a predicate of the kind notes, those in a list apart. -/
def PredicateKind.placeholderCount : PredicateKind → Nat
  | .equality => 1
  | .arrayEquality => 1
  | .comparison => 1
  | .range => 2
  | .patternMatch => 1
  | _ => 0

section

variable {notes notes' : Notes} {read rest : List Char}

theorem Piece.Reads.length_placeholders {piece : Piece} (h : piece.Reads notes read rest notes') :
    notes'.placeholders.length = notes.placeholders.length + [piece].countP Piece.isPlaceholder := by
  cases h with
  | placeholder => exact List.length_append
  | _ => rfl

theorem Shape.Reads.length_placeholders {shape : Shape} (h : shape.Reads notes read rest notes') :
    notes'.placeholders.length = notes.placeholders.length + shape.countP Piece.isPlaceholder := by
  induction h with
  | nil => rfl
  | @cons piece shape _ _ _ _ _ _ first _ ih =>
      rw [ih, first.length_placeholders, Nat.add_assoc, ← List.countP_append, List.singleton_append]

end

theorem countP_shape : ∀ kind : PredicateKind,
    kind.shape.countP Piece.isPlaceholder = kind.placeholderCount
  | .equality | .membership | .negatedMembership | .arrayEquality | .comparison | .range | .patternMatch
  | .nullCheck | .integerLiteral | .stringLiteral => rfl

section

variable {f : Family} {text : List Char} {m : Match Predicate}

theorem length_placeholders_of_mem (h : m ∈ f.predicatesIn text) :
    m.value.notes.placeholders.length = f.kind.placeholderCount := by
  obtain ⟨read, rest, stands⟩ := stands_of_mem_predicatesIn h
  rw [stands.reads.length_placeholders, countP_shape]
  exact Nat.zero_add _

theorem placeholder_stands_of_mem (h : m ∈ f.predicatesIn text) :
    ∀ p ∈ m.value.notes.placeholders, p.Stands text := by
  obtain ⟨read, rest, stands⟩ := stands_of_mem_predicatesIn h
  exact stands.placeholders

/-- The placeholders in the list of a predicate are those of the text as well. -/
theorem listed_stands_of_mem (h : m ∈ f.predicatesIn text)
    (kind : f.kind = .membership ∨ f.kind = .negatedMembership) :
    ∃ behind, m.value.notes.text ++ behind <:+ text ∧
      ∀ p ∈ placeholdersIn m.value.notes.text, Placeholder.Stands ⟨p.digits, p.behind ++ behind⟩ text := by
  obtain ⟨read, rest, stands⟩ := stands_of_mem_predicatesIn h
  obtain ⟨behind, inside, whole⟩ :
      ∃ behind, m.value.notes.text ++ behind <:+ text ∧ Stops isDigit behind := by
    rcases kind with kind | kind
    · exact list_inside stands [.gap, .word ['i', 'n'], .blanks, .symbol '('] (by rw [kind]; rfl)
    · exact list_inside stands [.gap, .word ['n', 'o', 't'], .gap, .word ['i', 'n'], .blanks, .symbol '(']
        (by rw [kind]; rfl)
  exact ⟨behind, inside, fun p listed =>
    ((stands_of_mem_placeholdersIn listed).append whole).of_suffix inside⟩

end

theorem Shape.read?_append (front back : Shape) (notes : Notes) (c : Cursor) :
    Shape.read? notes c (front ++ back) =
      (front.read? notes c).bind fun (notes, after) => back.read? notes after := by
  induction front generalizing notes c with
  | nil => rfl
  | cons piece front ih =>
      rw [List.cons_append, Shape.read?, Shape.read?, Option.bind_assoc]
      exact Option.bind_congr fun _ _ => ih _ _

/-- A shape that ends with the end of a number is read up to where none goes on. -/
theorem Shape.stops_of_numberEnd (front : Shape) {notes notes' : Notes} {c after : Cursor}
    (h : Shape.read? notes c (front ++ [Piece.numberEnd]) = some (notes', after)) :
    Stops isWord after.rest ∧ Stops (· == '.') after.rest := by
  rw [Shape.read?_append] at h
  obtain ⟨⟨between, last⟩, -, h⟩ := Option.bind_eq_some_iff.mp h
  obtain ⟨⟨_, _⟩, ends, h⟩ := Option.bind_eq_some_iff.mp h
  cases h
  simp only [Piece.read?] at ends
  split at ends
  · cases ends
  · next apart =>
    cases ends
    cases rest : after.rest with
    | nil => exact ⟨stops_nil _, stops_nil _⟩
    | cons x rest =>
        rw [rest] at apart
        simp only [List.head?_cons, isWord?, Bool.or_eq_true, not_or, Bool.not_eq_true] at apart
        exact ⟨stops_cons apart.1, stops_cons apart.2⟩

theorem Shape.Reads.eq_nil_of_numberEnd {notes notes' : Notes} {read rest : List Char}
    (h : Shape.Reads [.numberEnd] notes read rest notes') : read = [] := by
  cases h with
  | cons first others =>
      cases first
      cases others
      rfl

/-- A predicate is found by reading the shape of its kind behind its column. -/
theorem exists_read?_of_match? {f : Family} {c after : Cursor} {p : Predicate}
    (h : f.pattern.match? c = some (p, after)) :
    ∃ behind, f.kind.shape.read? {} behind = some (p.notes, after) := by
  simp only [Family.pattern] at h
  split at h
  · obtain ⟨⟨_, behind⟩, -, h⟩ := Option.bind_eq_some_iff.mp h
    obtain ⟨_, read, h⟩ := Option.bind_eq_some_iff.mp h
    cases h
    exact ⟨behind, read⟩
  · cases h

/-- Digits behind a column and an equals sign, as far as they go, with neither a word nor a point behind
them. -/
structure WholeNumber (text column digits behind : List Char) : Prop where
  run : IsRun isDigit digits
  written : Equates text column digits behind
  whole : Stops isDigit behind
  apart : Stops isWord behind
  point : Stops (· == '.') behind

theorem wholeNumber_of_mem {f : Family} {text : List Char} {m : Match Predicate}
    (h : m ∈ f.predicatesIn text) (kind : f.kind = .integerLiteral) :
    WholeNumber text m.value.spelledColumn m.value.notes.text m.after.rest := by
  obtain ⟨matched, inside⟩ := of_mem_predicatesIn h
  obtain ⟨read, cut, qualified, column, qualifier, reads⟩ := of_match? matched
  rw [List.append_assoc] at cut
  have stands : m.value.Stands f text read m.after.rest := ⟨cut ▸ inside, qualified, column, qualifier, reads⟩
  obtain ⟨digits, more, _, _, number, last, noted, written⟩ := equates stands (by rw [kind]; rfl) rfl
  cases last.eq_nil_of_numberEnd
  obtain ⟨behind, read⟩ := exists_read?_of_match? matched
  rw [kind] at read
  have ends := Shape.stops_of_numberEnd [.blanks, .symbol '=', .blanks, .number] read
  cases number with
  | number nonempty all whole =>
      rw [noted]
      exact ⟨⟨nonempty, all⟩, written, whole, ends.1, ends.2⟩

/-- A literal is the number that all its digits write. -/
theorem values_of_integerLiteral {p : Predicate} {parameters : List Value} {c : Condition}
    (h : p.condition? parameters .integerLiteral = .ok (some c)) :
    c.values = [.int (digitsValue p.notes.text)] := by
  obtain ⟨-, spelling, content, -⟩ := of_condition? h
  obtain ⟨n, read, same⟩ := bind_eq_ok_iff.mp content
  simp only [pure_eq_ok, Except.ok.injEq, Option.some.injEq, Prod.mk.injEq] at same
  rw [← same.2, eq_digitsValue_of_ofDigits (mapError_eq_ok_iff.mp read)]

/-- In every text, whatever its digits are, a placeholder that a predicate notes or that stands in its
list is read with all the digits behind its dollar sign, and a literal with all its digits, if neither a
word nor a point goes on behind them. Going back finds the same predicates, and no shorter index. -/
theorem digit_runs_whole (text : List Char) :
    (∀ f : Family, f.searching.allIn text = f.predicatesIn text) ∧
    (∀ f : Family, ∀ m ∈ f.predicatesIn text,
      m.value.notes.placeholders.length = f.kind.placeholderCount ∧
      ∀ p ∈ m.value.notes.placeholders, p.Stands text) ∧
    (∀ p ∈ placeholdersIn text, p.Stands text) ∧
    (∀ f : Family, f.kind = .membership ∨ f.kind = .negatedMembership → ∀ m ∈ f.predicatesIn text,
      ∃ behind, m.value.notes.text ++ behind <:+ text ∧
        ∀ p ∈ placeholdersIn m.value.notes.text,
          Placeholder.Stands ⟨p.digits, p.behind ++ behind⟩ text) ∧
    ∀ f : Family, f.kind = .integerLiteral → ∀ m ∈ f.predicatesIn text,
      WholeNumber text m.value.spelledColumn m.value.notes.text m.after.rest ∧
      ∀ parameters c, m.value.condition? parameters .integerLiteral = .ok (some c) →
        c.values = [.int (digitsValue m.value.notes.text)] := by
  refine ⟨fun f => ?_, fun f m found => ?_, fun p => stands_of_mem_placeholdersIn, fun f kind m found => ?_,
    fun f kind m found => ?_⟩
  · rw [f.searching_eq_pattern]
    rfl
  · exact ⟨length_placeholders_of_mem found, placeholder_stands_of_mem found⟩
  · exact listed_stands_of_mem found kind
  · exact ⟨wholeNumber_of_mem found kind, fun _ _ => values_of_integerLiteral⟩

/-- Placeholders of one digit and of two, a literal of Arabic digits, and two that are no literals. -/
def numberedFilters : List Char :=
  "t.a = $12 AND t.b IN ($3,$45) AND t.c = ٣٤ AND t.d = 12.5 AND t.e = 7x".toList

theorem numberedFilters_digit_runs :
    (∃ m ∈ Family.predicatesIn ⟨.equality, true⟩ numberedFilters, ∃ p ∈ m.value.notes.placeholders,
      p.digits = ['1', '2'] ∧ p.Stands numberedFilters) ∧
    (∃ m ∈ Family.predicatesIn ⟨.membership, true⟩ numberedFilters,
      (placeholdersIn m.value.notes.text).map (·.digits) = [['3'], ['4', '5']]) ∧
    (Family.predicatesIn ⟨.integerLiteral, true⟩ numberedFilters).map (·.value.notes.text) = [['٣', '٤']] ∧
    ∀ m ∈ Family.predicatesIn ⟨.integerLiteral, true⟩ numberedFilters,
      WholeNumber numberedFilters m.value.spelledColumn m.value.notes.text m.after.rest := by
  obtain ⟨-, noted, -, -, literals⟩ := digit_runs_whole numberedFilters
  refine ⟨?_, ?_, by decide +kernel, fun m found => (literals _ rfl m found).1⟩
  · have indices : (Family.predicatesIn ⟨.equality, true⟩ numberedFilters).map
        (fun m => m.value.notes.placeholders.map (·.digits)) = [[['1', '2']]] := by
      decide +kernel
    obtain ⟨m, found, digits⟩ := List.mem_map.mp (indices ▸ List.mem_cons_self ..)
    obtain ⟨p, first, same⟩ := List.mem_map.mp (digits ▸ List.mem_cons_self ..)
    exact ⟨m, found, p, first, same, (noted _ m found).2 p first⟩
  · have lists : (Family.predicatesIn ⟨.membership, true⟩ numberedFilters).map
        (fun m => (placeholdersIn m.value.notes.text).map (·.digits)) = [[['3'], ['4', '5']]] := by
      decide +kernel
    exact List.mem_map.mp (lists ▸ List.mem_cons_self ..)

end QueryHarvest.Sql
