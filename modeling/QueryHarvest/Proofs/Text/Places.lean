import QueryHarvest.Proofs.Text.Searching

/-! # What a reader has read

A reader that comes to a later place has read what stands between the two places, and nothing else. The
matches of a search stand in the text that was searched.
-/

namespace QueryHarvest.Text

/-- A reader comes over a piece of text from one place to another. -/
structure Cursor.Passes (c : Cursor) (read : List Char) (after : Cursor) : Prop where
  rest : c.rest = read ++ after.rest
  before : after.before = read.getLast?.or c.before

namespace Cursor

variable {c d after : Cursor} {test : Char → Bool} {read more : List Char}

namespace Passes

theorem refl (c : Cursor) : c.Passes [] c :=
  ⟨rfl, rfl⟩

theorem eq (h : c.Passes [] after) : after = c := by
  obtain ⟨before, text⟩ := c
  obtain ⟨before', text'⟩ := after
  have rest : text = text' := h.rest
  have same : before' = before := h.before
  rw [rest, same]

theorem trans (first : c.Passes read d) (second : d.Passes more after) :
    c.Passes (read ++ more) after where
  rest := by rw [first.rest, second.rest, List.append_assoc]
  before := by rw [second.before, first.before, List.getLast?_append, Option.or_assoc]

/-- Behind something, it does not matter what came before it. -/
theorem before_eq (h : c.Passes read after) (nonempty : read ≠ []) : after.before = read.getLast? := by
  rw [h.before, getLast?_or nonempty]

theorem length (h : c.Passes read after) : c.rest.length = read.length + after.rest.length := by
  rw [h.rest, List.length_append]

/-- What lies between two places that are reached over pieces of the same text. -/
theorem compare (first : c.Passes read d) (second : c.Passes more after) :
    (∃ between, more = read ++ between ∧ d.Passes between after) ∨
      ∃ past, past ≠ [] ∧ read = more ++ past ∧ after.Passes past d := by
  rcases List.append_eq_append_iff.mp (first.rest.symm.trans second.rest) with
    ⟨between, rfl, same⟩ | ⟨past, rfl, same⟩
  · refine .inl ⟨between, rfl, same, ?_⟩
    rw [second.before, first.before, List.getLast?_append, Option.or_assoc]
  · cases past with
    | nil =>
        refine .inl ⟨[], by simp, by simpa using same.symm, ?_⟩
        rw [second.before, first.before, List.append_nil]
        rfl
    | cons x past =>
        refine .inr ⟨x :: past, List.cons_ne_nil x past, rfl, same, ?_⟩
        rw [first.before, second.before, List.getLast?_append, Option.or_assoc]

end Passes

theorem passes_start (front rest : List Char) : (start (front ++ rest)).Passes front ⟨front.getLast?, rest⟩ :=
  ⟨rfl, by rw [start, Option.or_none]⟩

theorem dropWhile_stops (test : Char → Bool) (text : List Char) : Stops test (text.dropWhile test) := by
  induction text with
  | nil => exact stops_nil test
  | cons x text ih =>
      cases passes : test x with
      | true => rwa [List.dropWhile_cons_of_pos passes]
      | false =>
          rw [List.dropWhile_cons_of_neg (by simp [passes])]
          exact stops_cons passes

theorem rest_skip (test : Char → Bool) (c : Cursor) :
    ∃ read, c.rest = read ++ (c.skip test).rest ∧ ∀ x ∈ read, test x :=
  ⟨c.rest.takeWhile test, List.takeWhile_append_dropWhile.symm, fun _ => List.mem_takeWhile_imp⟩

theorem passes_one? (h : c.one? test = some after) : ∃ x, c.Passes [x] after ∧ test x := by
  rw [one?] at h
  split at h
  · contradiction
  · next x rest shown =>
    split at h
    · next passes =>
      cases h
      exact ⟨x, ⟨shown, rfl⟩, passes⟩
    · contradiction

theorem of_one? (h : c.one? test = some after) : ∃ x, c.rest = x :: after.rest ∧ test x := by
  obtain ⟨x, passed, passes⟩ := passes_one? h
  exact ⟨x, passed.rest, passes⟩

theorem passes_span1? (h : c.span1? test = some (read, after)) :
    c.Passes read after ∧ read ≠ [] ∧ (∀ x ∈ read, test x) ∧ Stops test after.rest := by
  have found : c.span test = (read, after) ∧ read ≠ [] := by
    rw [span1?] at h
    split at h
    · contradiction
    · next spanned =>
      cases h
      exact ⟨spanned, List.cons_ne_nil _ _⟩
  obtain ⟨spanned, nonempty⟩ := found
  simp only [span, Prod.mk.injEq] at spanned
  obtain ⟨rfl, rfl⟩ := spanned
  exact ⟨⟨List.takeWhile_append_dropWhile.symm, rfl⟩, nonempty, fun _ => List.mem_takeWhile_imp,
    dropWhile_stops test c.rest⟩

theorem of_span1? (h : c.span1? test = some (read, after)) :
    c.rest = read ++ after.rest ∧ read ≠ [] ∧ (∀ x ∈ read, test x) ∧ Stops test after.rest := by
  obtain ⟨passed, facts⟩ := passes_span1? h
  exact ⟨passed.rest, facts⟩

theorem passes_keyword? {word : List Char} (h : c.keyword? word = some after) :
    ∃ read, c.Passes read after ∧ read.map foldLetter = word := by
  induction word generalizing c with
  | nil =>
      cases h
      exact ⟨[], .refl _, rfl⟩
  | cons letter word ih =>
      obtain ⟨next, first, others⟩ := Option.bind_eq_some_iff.mp h
      obtain ⟨x, here, folds⟩ := passes_one? first
      obtain ⟨read, later, folded⟩ := ih others
      exact ⟨x :: read, here.trans later, by rw [List.map_cons, folded, eq_of_beq folds]⟩

theorem of_keyword? {word : List Char} (h : c.keyword? word = some after) :
    ∃ read, c.rest = read ++ after.rest ∧ read.map foldLetter = word := by
  obtain ⟨read, passed, folds⟩ := passes_keyword? h
  exact ⟨read, passed.rest, folds⟩

/-- A word is read wherever it is spelled, in whatever case. -/
theorem keyword?_append (before : Option Char) (word rest : List Char) :
    keyword? ⟨before, word ++ rest⟩ (word.map foldLetter) = some ⟨word.getLast?.or before, rest⟩ := by
  induction word generalizing before with
  | nil => rfl
  | cons x word ih =>
      have here : one? (fun y => foldLetter y == foldLetter x) ⟨before, x :: (word ++ rest)⟩ =
          some ⟨some x, word ++ rest⟩ := one?_of_passes (beq_self_eq_true _)
      rw [List.map_cons, List.cons_append, keyword?, here, Option.bind_some, ih (some x),
        List.getLast?_cons]
      cases word.getLast? <;> rfl

theorem passes_identifier? (h : c.identifier? = some (read, after)) :
    c.Passes read after ∧ isIdentifier read ∧ Stops isIdentPart after.rest := by
  rw [identifier?] at h
  split at h
  · contradiction
  · next x rest shown =>
    split at h
    · next start =>
      obtain ⟨passed, nonempty, parts, stops⟩ := passes_span1? h
      refine ⟨passed, ?_, stops⟩
      have cut := passed.rest
      cases read with
      | nil => contradiction
      | cons y read =>
          rw [shown] at cut
          cases cut
          rw [isIdentifier, start, Bool.true_and]
          exact List.all_eq_true.mpr fun z member => parts z (List.mem_cons_of_mem _ member)
    · contradiction

theorem of_identifier? (h : c.identifier? = some (read, after)) :
    c.rest = read ++ after.rest ∧ isIdentifier read := by
  obtain ⟨passed, identifier, -⟩ := passes_identifier? h
  exact ⟨passed.rest, identifier⟩

theorem identifier?_eq_none_iff : c.identifier? = none ↔ Stops isIdentStart c.rest := by
  obtain ⟨before, text⟩ := c
  cases text with
  | nil => exact ⟨fun _ => stops_nil _, fun _ => rfl⟩
  | cons x text =>
      cases start : isIdentStart x with
      | false => simp [Stops, start]
      | true =>
          have part := isIdentPart_of_isIdentStart start
          simp [span1?, span, Stops, start, part]

end Cursor

/-- The matches of a search are matches of the pattern at places in the text. -/
theorem Pattern.of_mem_findAll {α : Type} {p : Pattern α}
    (goesOn : ∀ {c after : Cursor} {value : α}, p.match? c = some (value, after) →
      after.rest <:+ c.rest)
    {c : Cursor} {found : Match α} (h : found ∈ p.findAll c) :
    p.match? found.place = some (found.value, found.after) ∧ found.place.rest <:+ c.rest := by
  rw [findAll] at h
  split at h
  · next value after here =>
    have shrinks := p.shrinks here
    rcases List.mem_cons.mp h with rfl | later
    · exact ⟨here, List.suffix_rfl⟩
    · obtain ⟨matched, inside⟩ := of_mem_findAll goesOn later
      exact ⟨matched, inside.trans (goesOn here)⟩
  · split at h
    · contradiction
    · next x rest shown =>
      obtain ⟨matched, inside⟩ := of_mem_findAll goesOn h
      exact ⟨matched, inside.trans (shown ▸ List.suffix_cons x rest)⟩
termination_by c.rest.length
decreasing_by
  · exact shrinks
  · simp_all

namespace Pattern

variable {α : Type} {p : Pattern α}

/-- No match goes past a mark. -/
def StopsAt (p : Pattern α) (mark : Char) : Prop :=
  ∀ {c after : Cursor} {value : α}, p.match? c = some (value, after) →
    ∃ read, c.rest = read ++ after.rest ∧ mark ∉ read

/-- What ends before a mark can only take characters from in front of it. -/
theorem exists_front_of_cut {mark : Char} {front rest read behind : List Char}
    (cut : front ++ mark :: rest = read ++ behind) (unread : mark ∉ read) :
    ∃ front', front = read ++ front' ∧ behind = front' ++ mark :: rest := by
  rcases List.append_eq_append_iff.mp cut with ⟨past, rfl, same⟩ | ⟨front', rfl, same⟩
  · cases past with
    | nil => exact ⟨[], by simp, by simpa using same.symm⟩
    | cons x past =>
        cases same
        exact absurd (by simp) unread
  · exact ⟨front', rfl, same⟩

/-- Behind a mark that no match goes past, the search finds what it would find if it began there. -/
theorem findAll_behind_mark {mark : Char} (h : p.StopsAt mark) (before : Option Char)
    (front rest : List Char) :
    (p.findAll ⟨some mark, rest⟩).Sublist (p.findAll ⟨before, front ++ mark :: rest⟩) := by
  induction length : front.length using Nat.strongRecOn generalizing before front with
  | ind n ih =>
      subst length
      cases matched : p.match? ⟨before, front ++ mark :: rest⟩ with
      | some found =>
          obtain ⟨value, before', behind⟩ := found
          obtain ⟨read, cut, unread⟩ := h matched
          obtain ⟨front', rfl, rfl⟩ := exists_front_of_cut cut unread
          have shorter := p.shrinks matched
          rw [findAll_match matched]
          exact (ih front'.length (by simp at shorter ⊢; omega) before' front' rfl).cons _
      | none =>
          cases front with
          | nil =>
              rw [List.nil_append] at matched ⊢
              rw [findAll_skip matched]
          | cons x front =>
              rw [List.cons_append] at matched ⊢
              rw [findAll_skip matched]
              exact ih front.length (Nat.lt_succ_self _) (some x) front rfl

/-- A search finds nothing, or something from where on it goes on. -/
theorem findAll_cases (p : Pattern α) (c : Cursor) :
    p.findAll c = [] ∨ ∃ m : Match α, p.match? m.place = some (m.value, m.after) ∧
      m.place.rest <:+ c.rest ∧ p.findAll c = m :: p.findAll m.after := by
  obtain ⟨before, text⟩ := c
  induction text generalizing before with
  | nil => exact .inl (findAll_nil before)
  | cons x text ih =>
      cases matched : p.match? ⟨before, x :: text⟩ with
      | some found => exact .inr ⟨⟨_, _, _⟩, matched, List.suffix_rfl, findAll_match matched⟩
      | none =>
          rw [findAll_skip matched]
          rcases ih (some x) with nothing | ⟨m, found, inside, same⟩
          · exact .inl nothing
          · exact .inr ⟨m, found, inside.trans (List.suffix_cons x text), same⟩

end Pattern

end QueryHarvest.Text
