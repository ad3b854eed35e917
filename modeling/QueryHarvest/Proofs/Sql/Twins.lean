import QueryHarvest.Proofs.Sql.Sources

/-! # Bare twins of qualified predicates

A predicate on a qualified column is found a second time on the bare column behind the point, when its
kind is one of those that never read on over a point. The two searches go through the text
independently; a point in the text brings the bare one back to where a column can begin.
-/

namespace QueryHarvest.Sql

open Text

/-- Does a piece never read a point? -/
def Piece.stopsAtPoint : Piece → Bool
  | .symbol c => c != '.'
  | .word letters => !letters.contains '.'
  | .list => false
  | .quoted => false
  | .name => false
  | _ => true

theorem not_point_of_foldLetter {read word : List Char} (folds : read.map foldLetter = word)
    (solid : '.' ∉ word) : '.' ∉ read := by
  subst folds
  exact fun member => solid (List.mem_map.mpr ⟨'.', member, rfl⟩)

theorem not_point_of_all {test : Char → Bool} {read : List Char} (all : ∀ x ∈ read, test x)
    (fails : test '.' = false) : '.' ∉ read :=
  fun member => absurd (all '.' member) (by rw [fails]; decide)

theorem Piece.Reads.no_point {piece : Piece} {notes notes' : Notes} {read rest : List Char}
    (h : piece.Reads notes read rest notes') (stops : piece.stopsAtPoint) : '.' ∉ read := by
  cases h with
  | blanks blank => exact not_point_of_all blank (by decide)
  | gap _ blank => exact not_point_of_all blank (by decide)
  | symbol c =>
      rintro (_ | ⟨_, ⟨⟩⟩)
      contradiction
  | word => exact not_point_of_foldLetter rfl (by simpa [stopsAtPoint] using stops)
  | placeholder _ all _ => simpa using not_point_of_all all (by decide)
  | comparison comparison => cases comparison <;> decide
  | like folds => exact not_point_of_foldLetter folds (by decide)
  | ilike folds => exact not_point_of_foldLetter folds (by decide)
  | negation folds blank =>
      rw [List.mem_append, not_or]
      exact ⟨not_point_of_foldLetter folds (by decide), not_point_of_all blank (by decide)⟩
  | number _ all _ => exact not_point_of_all all (by decide)
  | noNegation | wordEnd | numberEnd => exact List.not_mem_nil
  | list | quoted | name => contradiction

theorem Shape.Reads.no_point {shape : Shape} {notes notes' : Notes} {read rest : List Char}
    (h : shape.Reads notes read rest notes') (stops : shape.all Piece.stopsAtPoint) : '.' ∉ read := by
  induction h with
  | nil => exact List.not_mem_nil
  | cons first _ ih =>
      rw [List.all_cons, Bool.and_eq_true] at stops
      rw [List.mem_append, not_or]
      exact ⟨first.no_point stops.1, ih stops.2⟩

theorem not_point_of_isIdentifier {name : List Char} (h : isIdentifier name) : '.' ∉ name :=
  not_point_of_all (fun _ member => isIdentPart_of_mem h _ member) (by decide)

/-- The kinds of predicates that never read on over a point. -/
def PredicateKind.stopsAtPoint (kind : PredicateKind) : Bool :=
  kind.shape.all Piece.stopsAtPoint

section

variable {kind : PredicateKind}

/-- A bare search comes to a halt at every point. -/
theorem bare_stopsAt (stops : kind.stopsAtPoint) : (Family.pattern ⟨kind, false⟩).StopsAt '.' := by
  intro c after p matched
  obtain ⟨read, cut, bare, column, -, reads⟩ := of_match? matched
  have unqualified : p.qualifier = none := by simpa using bare
  refine ⟨_, cut, ?_⟩
  rw [Predicate.spelledColumn, unqualified, List.mem_append, not_or]
  exact ⟨not_point_of_isIdentifier column, reads.no_point stops⟩

/-- A predicate on a qualified column, as a predicate on the bare one. -/
def Predicate.bare (p : Predicate) : Predicate :=
  { p with qualifier := none }

/-- Behind the point of a qualified column the bare pattern reads on as the qualified one does. -/
theorem match?_bare {c after : Cursor} {p : Predicate}
    (h : (Family.pattern ⟨kind, true⟩).match? c = some (p, after)) :
    ∃ table rest, p.qualifier = some table ∧ c.rest = table ++ '.' :: rest ∧
      (Family.pattern ⟨kind, false⟩).match? ⟨some '.', rest⟩ = some (p.bare, after) := by
  simp only [Family.pattern] at h
  split at h
  · obtain ⟨⟨⟨qualifier, column⟩, c₁⟩, named, h⟩ := Option.bind_eq_some_iff.mp h
    obtain ⟨⟨notes, c₂⟩, read, h⟩ := Option.bind_eq_some_iff.mp h
    cases h
    obtain ⟨⟨table, c₃⟩, first, named⟩ := Option.bind_eq_some_iff.mp named
    obtain ⟨c₄, point, named⟩ := Option.bind_eq_some_iff.mp named
    obtain ⟨⟨second, c₅⟩, column, named⟩ := Option.bind_eq_some_iff.mp named
    cases named
    obtain ⟨x, shown, same⟩ := Cursor.of_one? point
    obtain rfl : x = '.' := eq_of_beq same
    have behind : c₄ = ⟨some '.', c₄.rest⟩ := by
      simp only [Cursor.one?, shown, beq_self_eq_true, if_true, Option.some.injEq] at point
      exact point.symm
    refine ⟨table, c₄.rest, rfl, by rw [(Cursor.of_identifier? first).1, shown], ?_⟩
    have begins : Cursor.beginsWord ⟨some '.', c₄.rest⟩ := by
      change (!isWord '.') = true
      decide
    rw [behind] at column
    simp only [Family.pattern, begins, if_true, Family.readPredicate?, readColumn?, column, bind,
      Option.bind_some, Bool.false_eq_true, if_false, pure]
    change kind.shape.read? {} c₁ = some (notes, after) at read
    rw [read]
    rfl
  · contradiction

/-- The match on the bare column within a match on a qualified one. -/
def bareTwin (m : Match Predicate) : Match Predicate where
  place := ⟨some '.', m.place.rest.drop ((m.value.qualifier.getD []).length + 1)⟩
  value := m.value.bare
  after := m.after

/-- The bare search finds the twins of all that the qualified search finds, in their order. -/
theorem bareTwins_found (stops : kind.stopsAtPoint) (c : Cursor) :
    (((Family.pattern ⟨kind, true⟩).findAll c).map bareTwin).Sublist
      ((Family.pattern ⟨kind, false⟩).findAll c) := by
  induction length : c.rest.length using Nat.strongRecOn generalizing c with
  | ind n ih =>
      subst length
      rcases (Family.pattern ⟨kind, true⟩).findAll_cases c with nothing | ⟨m, matched, inside, found⟩
      · rw [nothing]
        exact List.nil_sublist _
      · obtain ⟨table, rest, qualified, cut, bare⟩ := match?_bare matched
        have shorter := (Family.pattern ⟨kind, true⟩).shrinks matched
        have twin : bareTwin m = ⟨⟨some '.', rest⟩, m.value.bare, m.after⟩ := by
          rw [bareTwin, qualified, cut]
          simp
        have later := ih m.after.rest.length (Nat.lt_of_lt_of_le shorter inside.length_le) m.after rfl
        obtain ⟨front, inside⟩ := inside
        rw [cut, ← List.append_assoc] at inside
        obtain ⟨before, text⟩ := c
        obtain rfl : front ++ table ++ '.' :: rest = text := inside
        rw [found, List.map_cons, twin]
        refine List.Sublist.trans ?_
          (Pattern.findAll_behind_mark (bare_stopsAt stops) before (front ++ table) rest)
        rw [Pattern.findAll_match bare]
        exact later.cons_cons _

end

section

variable {kind : PredicateKind} {p : Predicate} {parameters : List Value} {c : Condition}

@[simp] theorem content_bare (p : Predicate) (parameters : List Value) (kind : PredicateKind) :
    p.bare.content parameters kind = p.content parameters kind := by
  cases kind <;> rfl

theorem columnName?_bare {name : ColumnName} (h : p.columnName? = some name) :
    p.bare.columnName? = some ⟨none, name.column⟩ := by
  obtain ⟨rfl, unreserved⟩ := columnName?_eq_some h
  have column : isReservedName (String.ofList (lower p.column)) = false := unreserved.column
  simp [Predicate.columnName?, Predicate.bare, Predicate.loweredName, column]

theorem ofSpelling_withTable {table : Option String} {column spelling : String} {values : List Value}
    (h : Condition.ofSpelling table column spelling values = .ok c) (other : Option String) :
    Condition.ofSpelling other column spelling values = .ok (c.withTable other) := by
  unfold Condition.ofSpelling Condition.make at h ⊢
  split at h
  · split at h
    · next fits =>
      cases h
      rw [dif_pos fits]
      rfl
    · cases h
  · cases h

/-- What a predicate states of a qualified column, its twin states of the bare one. -/
theorem condition?_bare (h : p.condition? parameters kind = .ok (some c)) :
    p.bare.condition? parameters kind = .ok (some (c.withTable none)) := by
  unfold Predicate.condition? at h ⊢
  split at h
  · cases h
  next name named =>
  obtain ⟨found, content, h⟩ := bind_eq_ok_iff.mp h
  split at h
  · cases h
  next operator values =>
  obtain ⟨made, spelled, same⟩ := bind_eq_ok_iff.mp h
  cases same
  have twin := ofSpelling_withTable (mapError_eq_ok_iff.mp spelled) none
  simp only [columnName?_bare named, content_bare, content, ok_bind, twin]
  rfl

end

section

variable {statement : String} {text : List Char} {parameters : List Value} {f : Family}

/-- The condition that a match states, if it comes to one. -/
def stated (parameters : List Value) (kind : PredicateKind) (m : Match Predicate) : Option Condition :=
  (m.value.condition? parameters kind).toOption.join

theorem stated_eq_some_iff {kind : PredicateKind} {m : Match Predicate} {c : Condition} :
    stated parameters kind m = some c ↔ m.value.condition? parameters kind = .ok (some c) := by
  rw [stated]
  cases m.value.condition? parameters kind <;> simp

theorem conditionsIn_eq_stated {row : List Condition} (h : f.conditionsIn text parameters = .ok row) :
    row = (f.predicatesIn text).filterMap (stated parameters f.kind) := by
  obtain ⟨answers, read, same⟩ := bind_eq_ok_iff.mp h
  cases same
  have answered : (f.predicatesIn text).map (stated parameters f.kind) = answers.map id :=
    map_eq_of_forall₂ ((mapM_eq_ok_iff.mp read).imp fun m answer given => by rw [stated, given]; rfl)
  rw [List.map_id] at answered
  rw [← answered, List.filterMap_map]
  rfl

/-- When the conditions of a statement are found, those of each family are among them. -/
theorem exists_row_of_conditions {found : List Condition}
    (h : conditions statement parameters = .ok found)
    (member : f ∈ Family.all) :
    ∃ row, f.conditionsIn (normalForm statement.toList) parameters = .ok row ∧ row.Sublist found := by
  obtain ⟨rows, read, same⟩ := bind_eq_ok_iff.mp h
  cases same
  obtain ⟨row, inside, here⟩ := exists_right_of_forall₂ (mapM_eq_ok_iff.mp read) member
  exact ⟨row, here, List.sublist_flatten_of_mem inside⟩

theorem filterMap_sublist {α β : Type} {f g : α → Option β} (h : ∀ x y, f x = some y → g x = some y)
    (xs : List α) : (xs.filterMap f).Sublist (xs.filterMap g) := by
  induction xs with
  | nil => exact List.Sublist.refl _
  | cons x xs ih =>
      cases first : f x with
      | some y =>
          rw [List.filterMap_cons_some first, List.filterMap_cons_some (h x y first)]
          exact ih.cons_cons y
      | none =>
          rw [List.filterMap_cons_none first]
          cases second : g x with
          | some z =>
              rw [List.filterMap_cons_some second]
              exact ih.cons z
          | none =>
              rw [List.filterMap_cons_none second]
              exact ih

/-- The bare family states the twins of all that the qualified family states, in their order. -/
theorem stated_twins {kind : PredicateKind} (stops : kind.stopsAtPoint) (parameters : List Value)
    (text : List Char) :
    (((Family.predicatesIn ⟨kind, true⟩ text).filterMap (stated parameters kind)).map
        (·.withTable none)).Sublist
      ((Family.predicatesIn ⟨kind, false⟩ text).filterMap (stated parameters kind)) := by
  have twins := (bareTwins_found stops (Cursor.start text)).filterMap (stated parameters kind)
  rw [List.filterMap_map] at twins
  rw [List.map_filterMap]
  refine (filterMap_sublist (fun m c same => ?_) _).trans twins
  obtain ⟨c, states, rfl⟩ := Option.map_eq_some_iff.mp same
  exact stated_eq_some_iff.mpr (condition?_bare (stated_eq_some_iff.mp states))

end

/-- The kinds of predicates on one column whose values are parameters or that have none. -/
def twinnedKinds : List PredicateKind :=
  [.equality, .arrayEquality, .comparison, .range, .patternMatch, .nullCheck]

theorem stopsAtPoint_of_mem : ∀ kind ∈ twinnedKinds, kind.stopsAtPoint := by
  decide

theorem mem_all_of_twinned :
    ∀ kind ∈ twinnedKinds, ⟨kind, true⟩ ∈ Family.all ∧ ⟨kind, false⟩ ∈ Family.all := by
  decide

/-- When the conditions of a statement are found, the bare family of each of these kinds states what the
qualified one states, without the table. Every predicate that the qualified family finds it finds again
behind the point, up to the same place, and it states the same of the column. -/
theorem qualified_conditions_twinned {kind : PredicateKind} (twinned : kind ∈ twinnedKinds)
    {statement : String} {parameters : List Value} {found : List Condition}
    (returned : conditions statement parameters = .ok found) :
    let text := normalForm statement.toList
    (∃ qualified bare, Family.conditionsIn ⟨kind, true⟩ text parameters = .ok qualified ∧
      Family.conditionsIn ⟨kind, false⟩ text parameters = .ok bare ∧
      qualified.Sublist found ∧ bare.Sublist found ∧ (qualified.map (·.withTable none)).Sublist bare) ∧
    ∀ m ∈ Family.predicatesIn ⟨kind, true⟩ text, ∀ c,
      m.value.condition? parameters kind = .ok (some c) →
      ∃ twin ∈ Family.predicatesIn ⟨kind, false⟩ text,
        twin.value.condition? parameters kind = .ok (some (c.withTable none)) ∧ twin.after = m.after ∧
        ∃ table, m.value.qualifier = some table ∧ m.place.rest = table ++ '.' :: twin.place.rest := by
  intro text
  have stops := stopsAtPoint_of_mem kind twinned
  obtain ⟨qualified, readQualified, insideQualified⟩ :=
    exists_row_of_conditions returned (mem_all_of_twinned kind twinned).1
  obtain ⟨bare, readBare, insideBare⟩ :=
    exists_row_of_conditions returned (mem_all_of_twinned kind twinned).2
  have twins := stated_twins stops parameters text
  rw [← conditionsIn_eq_stated readQualified, ← conditionsIn_eq_stated readBare] at twins
  refine ⟨⟨qualified, bare, readQualified, readBare, insideQualified, insideBare, twins⟩, ?_⟩
  intro m member c states
  obtain ⟨table, rest, written, cut, -⟩ := match?_bare (of_mem_predicatesIn member).1
  have found := (bareTwins_found stops (Cursor.start text)).subset (List.mem_map_of_mem member)
  refine ⟨bareTwin m, found, condition?_bare states, rfl, table, written, ?_⟩
  rw [bareTwin, written, cut]
  simp

/-- Filters on qualified columns, one of which begins with a letter beyond ASCII. -/
def joinedFilters : String := "FROM o JOIN t WHERE o.ſum >= $1 AND t.a<$1 -- t.b > $1"

theorem joinedFilters_twinned :
    ∃ found, conditions joinedFilters [.int 7] = .ok found ∧
      ∃ qualified bare,
        Family.conditionsIn ⟨.comparison, true⟩ (normalForm joinedFilters.toList) [.int 7] =
          .ok qualified ∧
        Family.conditionsIn ⟨.comparison, false⟩ (normalForm joinedFilters.toList) [.int 7] =
          .ok bare ∧
        qualified.length = 2 ∧ (qualified.map (·.withTable none)).Sublist bare := by
  have twinned : PredicateKind.comparison ∈ twinnedKinds := by decide
  have returns : (conditions joinedFilters [.int 7]).isOk := by decide +kernel
  obtain ⟨found, returned⟩ := exists_of_isOk returns
  obtain ⟨⟨qualified, bare, readQualified, readBare, -, -, twins⟩, -⟩ :=
    qualified_conditions_twinned twinned returned
  have two : (Family.conditionsIn ⟨.comparison, true⟩ (normalForm joinedFilters.toList)
      [.int 7]).map List.length = .ok 2 := by
    decide +kernel
  rw [readQualified] at two
  exact ⟨found, returned, qualified, bare, readQualified, readBare, Except.ok.inj two, twins⟩

end QueryHarvest.Sql
