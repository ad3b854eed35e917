import QueryHarvest.Proofs.Sql.Backtracking
import QueryHarvest.Proofs.Sql.Twins
import QueryHarvest.Proofs.Text.Overlap

/-! # Which predicate a placeholder belongs to

What stands in front of a placeholder tells the kind of the predicate that notes it, and predicates of
one kind do not overlap. So no placeholder is noted by two predicates on bare columns.
-/

namespace QueryHarvest.Sql

open Text

/-- The parts of a shape in front of its placeholders. -/
def Shape.fronts : Shape → List Shape
  | [] => []
  | .placeholder :: shape => [] :: (fronts shape).map (.placeholder :: ·)
  | piece :: shape => (fronts shape).map (piece :: ·)

theorem Shape.mem_fronts_cons {piece : Piece} {shape front : Shape} (h : front ∈ shape.fronts) :
    piece :: front ∈ Shape.fronts (piece :: shape) := by
  cases piece with
  | placeholder => exact List.mem_cons_of_mem _ (List.mem_map_of_mem h)
  | _ => exact List.mem_map_of_mem h

/-- The placeholder is noted behind what a part of a shape has read, and lies in what is read. -/
structure Placeholder.IsRead (p : Placeholder) (shape : Shape) (notes : Notes) (front read rest : List Char) :
    Prop where
  reads : ∃ between, shape.Reads notes front ('$' :: (p.digits ++ p.behind)) between
  inside : ∃ back, read = front ++ '$' :: (p.digits ++ back) ∧ p.behind = back ++ rest

theorem Shape.Reads.exists_isRead {shape : Shape} {notes notes' : Notes} {read rest : List Char}
    (h : shape.Reads notes read rest notes') {p : Placeholder} (member : p ∈ notes'.placeholders) :
    p ∈ notes.placeholders ∨ ∃ before ∈ shape.fronts, ∃ front, p.IsRead before notes front read rest := by
  induction h with
  | nil => exact .inl member
  | @cons piece shape notes between _ here more rest first _ ih =>
      rcases ih member with between | ⟨before, listed, front, ⟨between', reads⟩, back, rfl, behind⟩
      · cases first with
        | @placeholder _ digits _ nonempty all whole =>
            rcases List.mem_append.mp between with earlier | noted
            · exact .inl earlier
            · rw [List.mem_singleton] at noted
              subst noted
              refine .inr ⟨[], List.mem_cons_self .., [], ⟨notes, .nil⟩, more, ?_, rfl⟩
              rfl
        | _ => exact .inl between
      · refine .inr ⟨piece :: before, Shape.mem_fronts_cons listed, here ++ front, ⟨between', .cons ?_ reads⟩,
          back, by simp, behind⟩
        simpa [behind] using first

/-- The kinds of predicates that note placeholders. -/
def claimingKinds : List PredicateKind :=
  [.equality, .arrayEquality, .comparison, .range, .patternMatch]

/-- The kind of predicate that notes a placeholder behind a character, which the given ones precede. -/
def slotAfter (x : Char) (before : List Char) : Option PredicateKind :=
  if x == '(' then some .arrayEquality
  else if x == '=' then
    some (if before.getLast?.any fun y => y == '>' || y == '<' || y == '!' then .comparison else .equality)
  else if x == '>' || x == '<' then some .comparison
  else if foldLetter x == 'n' || foldLetter x == 'd' then some .range
  else if foldLetter x == 'e' then some .patternMatch
  else none

/-- The kind of predicate that notes a placeholder behind a text. -/
def slotBehind (text : List Char) : Option PredicateKind :=
  match text.reverse.dropWhile isBlank with
  | [] => none
  | x :: before => slotAfter x before.reverse

theorem slotBehind_append {x : Char} (visible : isBlank x = false) (before : List Char) {blanks : List Char}
    (blank : ∀ y ∈ blanks, isBlank y) : slotBehind (before ++ x :: blanks) = slotAfter x before := by
  have reversed : (before ++ x :: blanks).reverse = blanks.reverse ++ x :: before.reverse := by simp
  have dropped : (before ++ x :: blanks).reverse.dropWhile isBlank = x :: before.reverse := by
    rw [reversed, List.dropWhile_append_of_pos fun y member => blank y (List.mem_reverse.mp member),
      List.dropWhile_cons_of_neg (by simp [visible])]
  simp only [slotBehind, dropped, List.reverse_reverse]

/-- Pieces that a placeholder stands behind are read in front of blanks. -/
theorem Shape.Reads.before_blanks (init : Shape) {piece last : Piece} (spaced : last = .blanks ∨ last = .gap)
    {notes notes' : Notes} {read rest : List Char}
    (h : Shape.Reads (init ++ [piece, last]) notes read rest notes') :
    ∃ earlier here blanks between between', read = earlier ++ (here ++ blanks) ∧
      piece.Reads between here (blanks ++ rest) between' ∧ ∀ y ∈ blanks, isBlank y := by
  obtain ⟨earlier, _, between, rfl, -, later⟩ := h.split
  obtain ⟨here, _, between', rfl, first, later⟩ := later.of_cons
  obtain ⟨blanks, _, _, rfl, second, others⟩ := later.of_cons
  cases others
  refine ⟨earlier, here, blanks, between, between', by simp, by simpa using first, ?_⟩
  rcases spaced with rfl | rfl <;> cases second <;> assumption

/-- A letter that folds to one of these is none of the marks. -/
theorem slotAfter_letter {x letter : Char} (folds : foldLetter x = letter) (alpha : letter.isAlpha)
    (before : List Char) :
    slotAfter x before =
      if letter == 'n' || letter == 'd' then some .range
      else if letter == 'e' then some .patternMatch else none := by
  have apart (mark : Char) (other : (foldLetter mark).isAlpha = false) : (x == mark) = false := by
    refine beq_false_of_ne fun same => ?_
    subst same
    simp [folds, alpha] at other
  rw [slotAfter, apart '(' rfl, apart '=' rfl, apart '>' rfl, apart '<' rfl, folds]
  rfl

/-- Behind a word and blanks, the last letter of the word tells. -/
theorem slotBehind_word (letters : List Char) {word : List Char} {letter : Char}
    (folds : word.map foldLetter = letters ++ [letter]) (alpha : letter.isAlpha) (before : List Char)
    {blanks : List Char} (blank : ∀ y ∈ blanks, isBlank y) :
    slotBehind (before ++ (word ++ blanks)) =
      if letter == 'n' || letter == 'd' then some .range
      else if letter == 'e' then some .patternMatch else none := by
  obtain ⟨front, last, rfl, -, folded⟩ := List.map_eq_append_iff.mp folds
  obtain ⟨x, rest, rfl, same, none⟩ := List.map_eq_cons_iff.mp folded
  rw [List.map_eq_nil_iff] at none
  subst none
  have visible : isBlank x = false := by
    refine Bool.eq_false_iff.mpr fun isBlank => ?_
    simpa [same] using foldLetter_of_isBlank isBlank alpha
  have shown : before ++ (front ++ [x] ++ blanks) = before ++ front ++ x :: blanks := by simp
  rw [shown, slotBehind_append visible _ blank, slotAfter_letter same alpha]

theorem slotBehind_comparison (comparison : Comparison) (before : List Char) {blanks : List Char}
    (blank : ∀ y ∈ blanks, isBlank y) :
    slotBehind (before ++ (comparison.text.toList ++ blanks)) = some .comparison := by
  have equals (mark : Char) (signs : mark == '>' || mark == '<' || mark == '!') :
      slotBehind (before ++ ([mark, '='] ++ blanks)) = some .comparison := by
    rw [show before ++ ([mark, '='] ++ blanks) = before ++ [mark] ++ '=' :: blanks by simp,
      slotBehind_append rfl _ blank]
    simp [slotAfter, signs]
  cases comparison with
  | atLeast => exact equals '>' rfl
  | atMost => exact equals '<' rfl
  | differs => exact equals '!' rfl
  | above => exact slotBehind_append rfl before blank
  | below => exact slotBehind_append rfl before blank
  | differsAngle =>
      have shown : before ++ (['<', '>'] ++ blanks) = before ++ ['<'] ++ '>' :: blanks := by simp
      exact (congrArg slotBehind shown).trans (slotBehind_append rfl _ blank)

/-- Behind a column and blanks stands no mark that would make a comparison of an equals sign. -/
theorem slotBehind_equals {column blanks : List Char} (named : isIdentifier column)
    (blank : ∀ y ∈ blanks, isBlank y) (before : List Char) {blanks' : List Char}
    (blank' : ∀ y ∈ blanks', isBlank y) :
    slotBehind (before ++ (column ++ (blanks ++ '=' :: blanks'))) = some .equality := by
  have filled : column ++ blanks ≠ [] := by
    rintro none
    rw [(List.append_eq_nil_iff.mp none).1] at named
    contradiction
  have last : (before ++ (column ++ blanks)).getLast? = some ((column ++ blanks).getLast filled) := by
    rw [List.getLast?_append, List.getLast?_eq_some_getLast filled, Option.some_or]
  have unmarked : ∀ y ∈ column ++ blanks, (y == '>' || y == '<' || y == '!') = false := by
    intro y member
    have apart (mark : Char) (visible : isBlank mark = false) (noPart : isIdentPart mark = false) :
        (y == mark) = false := by
      rcases List.mem_append.mp member with part | space
      · exact beq_false_of_class (isIdentPart_of_mem named y part) noPart
      · exact beq_false_of_class (blank y space) visible
    rw [apart '>' rfl rfl, apart '<' rfl rfl, apart '!' rfl rfl]
    rfl
  rw [show before ++ (column ++ (blanks ++ '=' :: blanks')) = before ++ (column ++ blanks) ++ '=' :: blanks'
    by simp, slotBehind_append rfl _ blank', slotAfter, last]
  simp [unmarked _ (List.getLast_mem filled)]

/-- In front of a placeholder stands what tells the kind of its predicate. -/
theorem slotBehind_of_reads {kind : PredicateKind} (claiming : kind ∈ claimingKinds) {shape : Shape}
    (listed : shape ∈ kind.shape.fronts) {front rest : List Char} {notes notes' : Notes}
    (reads : shape.Reads notes front rest notes') {column : List Char} (named : isIdentifier column)
    (before : List Char) : slotBehind (before ++ (column ++ front)) = some kind := by
  have regroup (earlier here blanks : List Char) : before ++ (column ++ (earlier ++ (here ++ blanks))) =
      before ++ (column ++ earlier) ++ (here ++ blanks) := by
    simp
  cases kind with
  | equality =>
      rcases List.mem_singleton.mp listed with rfl
      obtain ⟨blanks, _, _, rfl, first, reads⟩ := reads.of_cons
      obtain ⟨sign, blanks', _, rfl, second, reads⟩ := reads.of_cons
      obtain ⟨_, _, _, rfl, third, reads⟩ := reads.of_cons
      cases reads
      cases second
      cases first with
      | blanks blank =>
          cases third with
          | blanks blank' => simpa using slotBehind_equals named blank before blank'
  | arrayEquality =>
      rcases List.mem_singleton.mp listed with rfl
      obtain ⟨earlier, _, blanks, _, _, rfl, mark, blank⟩ := Shape.Reads.before_blanks
        [.blanks, .symbol '=', .blanks, .word ['a', 'n', 'y'], .blanks] (.inl rfl) reads
      cases mark
      rw [regroup]
      exact slotBehind_append rfl _ blank
  | comparison =>
      rcases List.mem_singleton.mp listed with rfl
      obtain ⟨earlier, _, blanks, _, _, rfl, mark, blank⟩ :=
        Shape.Reads.before_blanks [.blanks] (.inl rfl) reads
      cases mark with
      | comparison comparison =>
          rw [regroup]
          exact slotBehind_comparison comparison _ blank
  | range =>
      rcases List.mem_cons.mp listed with rfl | second
      · obtain ⟨earlier, word, blanks, _, _, rfl, mark, blank⟩ :=
          Shape.Reads.before_blanks [.gap] (.inr rfl) reads
        rw [regroup]
        exact slotBehind_word ['b', 'e', 't', 'w', 'e', 'e'] mark.folds rfl _ blank
      · rcases List.mem_singleton.mp second with rfl
        obtain ⟨earlier, word, blanks, _, _, rfl, mark, blank⟩ := Shape.Reads.before_blanks
          [.gap, .word ['b', 'e', 't', 'w', 'e', 'e', 'n'], .gap, .placeholder, .gap] (.inr rfl) reads
        rw [regroup]
        exact slotBehind_word ['a', 'n'] mark.folds rfl _ blank
  | patternMatch =>
      rcases List.mem_singleton.mp listed with rfl
      obtain ⟨earlier, word, blanks, _, _, rfl, mark, blank⟩ :=
        Shape.Reads.before_blanks [.gap] (.inr rfl) reads
      rw [regroup]
      cases mark with
      | like folds => exact slotBehind_word ['l', 'i', 'k'] folds rfl _ blank
      | ilike folds => exact slotBehind_word ['i', 'l', 'i', 'k'] folds rfl _ blank
  | _ => contradiction

/-- Does the predicate note the placeholder that stands at a position of the text? -/
def Predicate.claims (p : Predicate) (text : List Char) (position : Nat) : Bool :=
  p.notes.placeholders.any fun q => '$' :: (q.digits ++ q.behind) == text.drop position

/-- The predicates on bare columns that note the placeholder at a position of the text. -/
def claimsAt (text : List Char) (position : Nat) : List (PredicateKind × Match Predicate) :=
  claimingKinds.flatMap fun kind =>
    ((Family.predicatesIn ⟨kind, false⟩ text).filter fun m => m.value.claims text position).map (kind, ·)

section

variable {kind : PredicateKind} {text : List Char} {position : Nat} {m m' : Match Predicate}

/-- A placeholder that a predicate claims lies in what the predicate has read, and what stands in front of
it tells the kind of the predicate. -/
theorem of_claims (claiming : kind ∈ claimingKinds) (found : m ∈ Family.predicatesIn ⟨kind, false⟩ text)
    (claims : m.value.claims text position) :
    slotBehind (text.take position) = some kind ∧
      m.after.rest.length < (text.drop position).length ∧
      (text.drop position).length ≤ m.place.rest.length := by
  obtain ⟨matched, inside⟩ := of_mem_predicatesIn found
  obtain ⟨read, cut, qualified, column, -, reads⟩ := of_match? matched
  obtain ⟨q, member, here⟩ := List.any_eq_true.mp claims
  have here : '$' :: (q.digits ++ q.behind) = text.drop position := eq_of_beq here
  have bare : m.value.spelledColumn = m.value.column := by
    have none : m.value.qualifier = none := Option.not_isSome_iff_eq_none.mp (by rw [qualified]; simp)
    rw [Predicate.spelledColumn, none]
    rfl
  obtain ⟨shape, listed, front, ⟨between, ahead⟩, back, rfl, behind⟩ :=
    (reads.exists_isRead member).resolve_left List.not_mem_nil
  obtain ⟨before, shown⟩ := inside
  have whole : text.take position ++ text.drop position =
      before ++ (m.value.column ++ front) ++ text.drop position := by
    rw [List.take_append_drop, ← here, behind, ← shown, cut, bare]
    simp
  refine ⟨?_, ?_, ?_⟩
  · rw [List.append_cancel_right whole]
    exact slotBehind_of_reads claiming listed ahead column before
  · rw [← here, behind]
    simp only [List.length_cons, List.length_append]
    omega
  · rw [cut, ← here, behind]
    simp only [List.length_cons, List.length_append]
    omega

theorem pairwise_predicatesIn (f : Family) (text : List Char) :
    (f.predicatesIn text).Pairwise fun m m' => m'.place.rest <:+ m.after.rest := by
  refine Pattern.pairwise_behind (fun matched => ?_) _
  obtain ⟨read, cut, -⟩ := of_match? matched
  exact ⟨_, cut.symm⟩

/-- Two predicates of one kind claim no placeholder together: the later one begins behind it. -/
theorem not_both_claim (claiming : kind ∈ claimingKinds)
    (found : m ∈ Family.predicatesIn ⟨kind, false⟩ text)
    (found' : m' ∈ Family.predicatesIn ⟨kind, false⟩ text) (behind : m'.place.rest <:+ m.after.rest)
    (claims : m.value.claims text position) (claims' : m'.value.claims text position) : False := by
  obtain ⟨-, read, -⟩ := of_claims claiming found claims
  obtain ⟨-, -, unread⟩ := of_claims claiming found' claims'
  have later := behind.length_le
  omega

theorem pairwise_claimsAt (text : List Char) (position : Nat) :
    (claimsAt text position).Pairwise fun _ _ => False := by
  refine List.pairwise_flatMap.mpr ⟨fun kind claiming => ?_, ?_⟩
  · refine List.pairwise_map.mpr (List.pairwise_filter.mpr ?_)
    refine (pairwise_predicatesIn ⟨kind, false⟩ text).imp_of_mem fun found found' behind claims claims' => ?_
    exact not_both_claim claiming found found' behind claims claims'
  · have distinct : claimingKinds.Pairwise (· ≠ ·) := by decide
    refine distinct.imp_of_mem fun claiming claiming' differ claim member claim' member' => differ ?_
    obtain ⟨m, found, rfl⟩ := List.mem_map.mp member
    obtain ⟨m', found', rfl⟩ := List.mem_map.mp member'
    obtain ⟨found, claims⟩ := List.mem_filter.mp found
    obtain ⟨found', claims'⟩ := List.mem_filter.mp found'
    have slot := (of_claims claiming found claims).1
    have slot' := (of_claims claiming' found' claims').1
    exact Option.some.inj (slot.symm.trans slot')

theorem length_le_one {α : Type} {xs : List α} (h : xs.Pairwise fun _ _ => False) : xs.length ≤ 1 := by
  cases h with
  | nil => exact Nat.zero_le 1
  | @cons x xs apart _ =>
      cases xs with
      | nil => exact Nat.le_refl 1
      | cons y => exact (apart y (List.mem_cons_self ..)).elim

/-- No two predicates of these kinds on bare columns note the same placeholder, whatever the text is, and
so no placeholder comes to two conditions. -/
theorem placeholder_claimed_once (text : List Char) (position : Nat) :
    (claimsAt text position).length ≤ 1 ∧
      ∀ parameters, ((claimsAt text position).filterMap fun (kind, m) => stated parameters kind m).length ≤ 1 := by
  have once := length_le_one (pairwise_claimsAt text position)
  exact ⟨once, fun parameters => (List.length_filterMap_le ..).trans once⟩

/-- The second placeholder of a range, behind a word that the pattern of a comparison does not read. -/
example : (claimsAt "a >= $1 AND b BETWEEN $2 AND $3".toList 29).map (·.1) = [.range] := by decide +kernel

end

end QueryHarvest.Sql
