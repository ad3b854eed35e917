import QueryHarvest.Proofs.Sql.Search

/-! # Extraction is exact on conjunctions

The table of a conjunction is found behind its `FROM`, and its conditions are those that the filters
denote, by kind and then in the order of the statement.
-/

namespace QueryHarvest.Sql

open Number Text

section

variable {keyword : List Char} {others : List (List Char)} {z : Option Char} {text : List Char}

theorem keyword?_of_stops {letter : Char} (word : List Char) (alpha : letter.isAlpha) {c : Cursor}
    (stops : Stops isIdentStart c.rest) : c.keyword? (letter :: word) = none := by
  have first : c.one? (fun x => foldLetter x == letter) = none := by
    unfold Cursor.one?
    split
    · rfl
    · next x rest h =>
      have start := stops x (by rw [h]; rfl)
      have differs : foldLetter x ≠ letter := by
        rintro rfl
        simp [isIdentStart, alpha] at start
      simp [differs]
  rw [Cursor.keyword?, first]
  rfl

theorem match?_reference (begins : isWord? z = false) :
    (referencePattern (keyword :: others)).match? ⟨z, text⟩ =
      (Shape.read? {} ⟨z, text⟩ (.word keyword :: .gap :: referenceShape others)).map
        fun (notes, after) => (notes.text, after) := by
  have here : Cursor.beginsWord ⟨z, text⟩ = true := by rw [Cursor.beginsWord, begins]; rfl
  simp only [referencePattern, here, if_true]
  rfl

theorem anchored_reference {letter : Char} (word : List Char) (alpha : letter.isAlpha)
    (others : List (List Char)) : (referencePattern ((letter :: word) :: others)).Anchored where
  atWord h := if_neg (by rw [h]; exact Bool.false_ne_true)
  atLetter {c} stops := by
    have unread : (referenceShape ((letter :: word) :: others)).read? {} c = none :=
      read_word_none fun after found => by
        rw [keyword?_of_stops word alpha stops] at found
        contradiction
    simp [referencePattern, unread]

/-- Keywords are read at a name only where the name is the first of them. -/
theorem reference_missed {name : Name} (alpha : ∀ x ∈ keyword, x.isAlpha) (ends : Stops isIdentPart text)
    (whole : name.letters = keyword →
      ∀ z, Shape.read? {} ⟨z, text⟩ (.gap :: referenceShape others) = none) :
    (referencePattern (keyword :: others)).match? ⟨some ' ', name.letters ++ text⟩ = none := by
  have unread : Shape.read? {} ⟨some ' ', name.letters ++ text⟩
      (.word keyword :: .gap :: referenceShape others) = none :=
    read_word_none fun after found => gap_behind_keyword name.identPart_letters alpha ends found
      fun same => whole (name.map_foldLetter_letters ▸ same)
  rw [match?_reference rfl, unread]
  rfl

end

theorem forall_referenceKeywords {P : List (List Char) → Prop} :
    (∀ keywords ∈ referenceKeywords, P keywords) ↔
      P [['f', 'r', 'o', 'm']] ∧ P [['j', 'o', 'i', 'n']] ∧ P [['i', 'n', 't', 'o']] ∧
        P [['u', 'p', 'd', 'a', 't', 'e']] ∧
          P [['d', 'e', 'l', 'e', 't', 'e'], ['f', 'r', 'o', 'm']] := by
  simp [referenceKeywords]

theorem anchored_of_mem :
    ∀ keywords ∈ referenceKeywords, (referencePattern keywords).Anchored :=
  forall_referenceKeywords.mpr
    ⟨anchored_reference _ rfl _, anchored_reference _ rfl _, anchored_reference _ rfl _,
      anchored_reference _ rfl _, anchored_reference _ rfl _⟩

theorem quiet_of_mem : ∀ keywords ∈ referenceKeywords, Quiet (referencePattern keywords) := by
  refine forall_referenceKeywords.mpr ⟨?_, ?_, ?_, ?_, ?_⟩ <;> intro word after h <;> cases h <;> rfl

/-- A column is none of the keywords that a table follows at once, and no `FROM` follows it. -/
theorem column_missed (f : Conjunct) (tail : List Char) :
    ∀ keywords ∈ referenceKeywords,
      (referencePattern keywords).match? ⟨some ' ', f.spelled ++ tail⟩ = none := by
  have ends : Stops isIdentPart (' ' :: (f.test.spelled ++ tail)) := stops_cons rfl
  have apart {keyword : List Char} (h : String.ofList keyword ∈ ["from", "join", "into", "update"])
      (same : f.column.letters = keyword) : False :=
    f.noKeyword (by rwa [← f.column.ofList_letters, same])
  have alone {keyword : List Char} (h : String.ofList keyword ∈ ["from", "join", "into", "update"])
      (alpha : ∀ x ∈ keyword, x.isAlpha) : (referencePattern [keyword]).match?
        ⟨some ' ', f.column.letters ++ ' ' :: (f.test.spelled ++ tail)⟩ = none :=
    reference_missed alpha ends fun same => (apart h same).elim
  rw [spelled_append]
  refine forall_referenceKeywords.mpr ⟨?_, ?_, ?_, ?_, ?_⟩
  · exact alone (by decide) (List.all_eq_true.mp rfl)
  · exact alone (by decide) (List.all_eq_true.mp rfl)
  · exact alone (by decide) (List.all_eq_true.mp rfl)
  · exact alone (by decide) (List.all_eq_true.mp rfl)
  · refine reference_missed (List.all_eq_true.mp rfl) ends fun _ z => ?_
    cases f.test with
    | compares comparison n => cases comparison <;> rfl
    | _ => rfl

section

variable {keywords : List (List Char)} (h : keywords ∈ referenceKeywords)
include h

/-- No table is referred to in a filter. -/
theorem valuesFrom_conjunct_reference (f : Conjunct) {tail : List Char} (closes : Closes tail) :
    (referencePattern keywords).valuesFrom ⟨some ' ', f.spelled ++ tail⟩ =
      (referencePattern keywords).valuesFrom ⟨none, tail⟩ := by
  refine valuesFrom_conjunct_quiet (anchored_of_mem keywords h) (quiet_of_mem keywords h) closes
    (column_missed f tail keywords h) fun positive _ => ?_
  exact forall_referenceKeywords (P := fun keywords => (referencePattern keywords).match?
    ⟨some ' ', 'N' :: 'O' :: 'T' :: ' ' :: (positive.spelled ++ tail)⟩ = none) |>.mpr
      ⟨rfl, rfl, rfl, rfl, rfl⟩ keywords h

/-- No table is referred to in the filters behind the first one. -/
theorem valuesFrom_rest_reference (filters : List Conjunct) (z : Option Char) :
    (referencePattern keywords).valuesFrom ⟨z, spelledRest filters⟩ = [] := by
  have anchored := anchored_of_mem keywords h
  induction filters generalizing z with
  | nil => exact Pattern.valuesFrom_nil z
  | cons f filters ih =>
      have conjunction : (referencePattern keywords).match?
          ⟨some ' ', ['A', 'N', 'D'] ++ ' ' :: (f.spelled ++ spelledRest filters)⟩ = none :=
        forall_referenceKeywords (P := fun keywords => (referencePattern keywords).match?
          ⟨some ' ', ['A', 'N', 'D'] ++ ' ' :: (f.spelled ++ spelledRest filters)⟩ = none) |>.mpr
            ⟨rfl, rfl, rfl, rfl, rfl⟩ keywords h
      calc (referencePattern keywords).valuesFrom ⟨z, spelledRest (f :: filters)⟩
        _ = (referencePattern keywords).valuesFrom
              ⟨some ' ', ['A', 'N', 'D'] ++ ' ' :: (f.spelled ++ spelledRest filters)⟩ :=
          valuesFrom_space anchored _
        _ = (referencePattern keywords).valuesFrom ⟨some ' ', f.spelled ++ spelledRest filters⟩ :=
          valuesFrom_word_space anchored (List.all_eq_true.mp rfl) conjunction
        _ = (referencePattern keywords).valuesFrom ⟨none, spelledRest filters⟩ :=
          valuesFrom_conjunct_reference h f (closes_spelledRest filters)
        _ = [] := ih none

/-- No table is referred to behind the `WHERE`. -/
theorem valuesFrom_condition (f : Conjunct) (filters : List Conjunct) (z : Option Char) :
    (referencePattern keywords).valuesFrom ⟨z, ' ' :: (f.spelled ++ spelledRest filters)⟩ = [] := by
  rw [valuesFrom_space (anchored_of_mem keywords h),
    valuesFrom_conjunct_reference h f (closes_spelledRest filters),
    valuesFrom_rest_reference h filters none]

theorem valuesFrom_where (f : Conjunct) (filters : List Conjunct) (z : Option Char) :
    (referencePattern keywords).valuesFrom
      ⟨z, ' ' :: 'W' :: 'H' :: 'E' :: 'R' :: 'E' :: ' ' :: (f.spelled ++ spelledRest filters)⟩ = [] := by
  have missed : (referencePattern keywords).match?
      ⟨some ' ', ['W', 'H', 'E', 'R', 'E'] ++ ' ' :: (f.spelled ++ spelledRest filters)⟩ = none :=
    forall_referenceKeywords (P := fun keywords => (referencePattern keywords).match?
      ⟨some ' ', ['W', 'H', 'E', 'R', 'E'] ++ ' ' :: (f.spelled ++ spelledRest filters)⟩ = none) |>.mpr
        ⟨rfl, rfl, rfl, rfl, rfl⟩ keywords h
  have passed := (anchored_of_mem keywords h).valuesFrom_word (List.all_eq_true.mp rfl) missed
  rw [valuesFrom_space (anchored_of_mem keywords h)]
  exact passed.trans (valuesFrom_condition h f filters _)

/-- The search comes to the `FROM`. -/
theorem valuesFrom_select (table : Name) (f : Conjunct) (filters : List Conjunct) :
    (referencePattern keywords).valuesFrom (Cursor.start (query table (f :: filters)).toList) =
      (referencePattern keywords).valuesFrom ⟨some ' ', ['F', 'R', 'O', 'M'] ++
        ' ' :: spelledTable table (f.spelled ++ spelledRest filters)⟩ := by
  have anchored := anchored_of_mem keywords h
  rw [toList_query]
  generalize spelledTable table (f.spelled ++ spelledRest filters) = text
  have missed : (referencePattern keywords).match? ⟨none, ['S', 'E', 'L', 'E', 'C', 'T'] ++
      ' ' :: '*' :: ' ' :: 'F' :: 'R' :: 'O' :: 'M' :: ' ' :: text⟩ = none :=
    forall_referenceKeywords (P := fun keywords => (referencePattern keywords).match?
      ⟨none, ['S', 'E', 'L', 'E', 'C', 'T'] ++
        ' ' :: '*' :: ' ' :: 'F' :: 'R' :: 'O' :: 'M' :: ' ' :: text⟩ = none) |>.mpr
          ⟨rfl, rfl, rfl, rfl, rfl⟩ keywords h
  exact (valuesFrom_word_space anchored (List.all_eq_true.mp rfl) missed).trans
    (anchored.valuesFrom_marks ['*', ' '] (marks_cons rfl (marks_cons rfl marks_nil)))

end

/-- Where a table is named like a keyword, the word behind it is taken for a table. -/
theorem match?_table (table : Name) (text : List Char) :
    ∀ keywords ∈ referenceKeywords,
      (referencePattern keywords).match? ⟨some ' ', spelledTable table text⟩ = none ∨
      (referencePattern keywords).match? ⟨some ' ', spelledTable table text⟩ =
        some (['W', 'H', 'E', 'R', 'E'], ⟨some 'E', ' ' :: text⟩) := by
  have named {keyword : List Char} (alpha : ∀ x ∈ keyword, x.isAlpha)
      (taken : (referencePattern [keyword]).match?
        ⟨some ' ', keyword ++ ' ' :: 'W' :: 'H' :: 'E' :: 'R' :: 'E' :: ' ' :: text⟩ =
          some (['W', 'H', 'E', 'R', 'E'], ⟨some 'E', ' ' :: text⟩)) :
      (referencePattern [keyword]).match? ⟨some ' ', spelledTable table text⟩ = none ∨
      (referencePattern [keyword]).match? ⟨some ' ', spelledTable table text⟩ =
        some (['W', 'H', 'E', 'R', 'E'], ⟨some 'E', ' ' :: text⟩) := by
    by_cases same : table.letters = keyword
    · right
      rw [spelledTable, same]
      exact taken
    · exact .inl (reference_missed alpha (stops_cons rfl) fun h => absurd h same)
  refine forall_referenceKeywords.mpr ⟨?_, ?_, ?_, ?_, ?_⟩
  · exact named (List.all_eq_true.mp rfl) rfl
  · exact named (List.all_eq_true.mp rfl) rfl
  · exact named (List.all_eq_true.mp rfl) rfl
  · exact named (List.all_eq_true.mp rfl) rfl
  · exact .inl (reference_missed (List.all_eq_true.mp rfl) (stops_cons rfl) fun _ _ => rfl)

/-- Keywords other than `FROM` have at most the `WHERE` behind them. -/
theorem valuesFrom_other {keywords : List (List Char)} (h : keywords ∈ referenceKeywords.tail)
    (table : Name) (f : Conjunct) (filters : List Conjunct) :
    ∀ word ∈ (referencePattern keywords).valuesFrom
      (Cursor.start (query table (f :: filters)).toList), word = ['W', 'H', 'E', 'R', 'E'] := by
  have member : keywords ∈ referenceKeywords := List.mem_of_mem_tail h
  have anchored := anchored_of_mem keywords member
  have missed : (referencePattern keywords).match? ⟨some ' ', ['F', 'R', 'O', 'M'] ++
      ' ' :: spelledTable table (f.spelled ++ spelledRest filters)⟩ = none := by
    simp only [referenceKeywords, List.tail_cons, List.mem_cons, List.not_mem_nil, or_false] at h
    rcases h with rfl | rfl | rfl | rfl <;> rfl
  rw [valuesFrom_select member, valuesFrom_word_space anchored (List.all_eq_true.mp rfl) missed]
  rcases match?_table table (f.spelled ++ spelledRest filters) keywords member with missed | taken
  · rw [spelledTable] at missed ⊢
    rw [anchored.valuesFrom_word (fun _ member => (Name.namePart_of_mem member).word) missed,
      valuesFrom_where member]
    simp
  · rw [Pattern.valuesFrom_match taken, valuesFrom_condition member]
    simp

/-- At a `FROM` the name behind it is read. -/
theorem match?_from {name : List Char} (named : isIdentifier name) (text : List Char) :
    (referencePattern [['f', 'r', 'o', 'm']]).match?
      ⟨some ' ', 'F' :: 'R' :: 'O' :: 'M' :: ' ' :: (name ++ ' ' :: text)⟩ =
        some (name, ⟨name.getLast?, ' ' :: text⟩) := by
  have nonempty : name ≠ [] := by
    rintro rfl
    contradiction
  have blank : Stops isBlank (name ++ ' ' :: text) := stops_blank_letters (isIdentPart_of_mem named) nonempty
  have whole : Piece.readName? ⟨some ' ', name ++ ' ' :: text⟩ = some (name, ⟨name.getLast?, ' ' :: text⟩) := by
    rw [Piece.readName?, Cursor.identifier?_append named (stops_cons rfl)]
    rfl
  have read : Shape.read? {} ⟨some 'M', ' ' :: (name ++ ' ' :: text)⟩ [.gap, .name] =
      some ({ text := name }, ⟨name.getLast?, ' ' :: text⟩) := by
    rw [read_gap blank, Shape.read?, Piece.read?, whole]
    rfl
  rw [match?_reference rfl]
  exact congrArg (Option.map _) read

/-- Behind the `FROM` stands the table. -/
theorem valuesFrom_from (table : Name) (f : Conjunct) (filters : List Conjunct) :
    (referencePattern [['f', 'r', 'o', 'm']]).valuesFrom
      (Cursor.start (query table (f :: filters)).toList) = [table.letters] := by
  have member : [['f', 'r', 'o', 'm']] ∈ referenceKeywords := by simp [referenceKeywords]
  have found := match?_from table.isIdentifier_letters
    ('W' :: 'H' :: 'E' :: 'R' :: 'E' :: ' ' :: (f.spelled ++ spelledRest filters))
  rw [valuesFrom_select member, spelledTable]
  refine (Pattern.valuesFrom_match found).trans ?_
  rw [valuesFrom_where member]

theorem solid_placeholder (n : Nat) : Solid (spelledPlaceholder n) where
  nonempty := List.cons_ne_nil _ _
  passes _ member := by
    rcases List.mem_cons.mp member with rfl | member
    · rfl
    · exact (digit_facts (isDigit_char_of_mem_toDigits member)).2

theorem solid_of_all {word : List Char} (nonempty : word ≠ []) (h : word.all isSolid) : Solid word :=
  ⟨nonempty, List.all_eq_true.mp h⟩

theorem neat_listed {text : List Char} (h : Neat text) (others : List Nat) :
    Neat (text ++ others.flatMap fun n => ',' :: ' ' :: spelledPlaceholder n) := by
  induction others generalizing text with
  | nil => simpa using h
  | cons n others ih =>
      have comma : Neat (text ++ [',']) := h.append [','] (List.all_eq_true.mp rfl)
      have next := ih (comma.join (.word (solid_placeholder n)))
      simpa using next

theorem neat_in (first : Nat) (others : List Nat) : Neat (spelledIn first others) := by
  have opening : Solid ('(' :: spelledPlaceholder first) :=
    IsRun.append (solid_of_all (List.cons_ne_nil '(' []) rfl) (solid_placeholder first).passes
  have list := (neat_listed (.word opening) others).append [')'] (List.all_eq_true.mp rfl)
  exact .cons (solid_of_all (List.cons_ne_nil 'I' ['N']) rfl) list

theorem neat_range (low high : Nat) : Neat (spelledRange low high) :=
  .cons (solid_of_all (List.cons_ne_nil 'B' ['E', 'T', 'W', 'E', 'E', 'N']) rfl)
    (.cons (solid_placeholder low)
      (.cons (solid_of_all (List.cons_ne_nil 'A' ['N', 'D']) rfl) (.word (solid_placeholder high))))

theorem neat_like (n : Nat) : Neat (spelledLike n) :=
  .cons (solid_of_all (List.cons_ne_nil 'L' ['I', 'K', 'E']) rfl) (.word (solid_placeholder n))

theorem neat_ilike (n : Nat) : Neat ('I' :: spelledLike n) :=
  .cons (solid_of_all (List.cons_ne_nil 'I' ['L', 'I', 'K', 'E']) rfl) (.word (solid_placeholder n))

theorem neat_not {text : List Char} (h : Neat text) : Neat ('N' :: 'O' :: 'T' :: ' ' :: text) :=
  .cons (solid_of_all (List.cons_ne_nil 'N' ['O', 'T']) rfl) h

theorem neat_test (test : Test) : Neat test.spelled := by
  cases test with
  | equals n => exact .cons (solid_of_all (List.cons_ne_nil '=' []) rfl) (.word (solid_placeholder n))
  | isIn first others => exact neat_in first others
  | notIn first others => exact neat_not (neat_in first others)
  | anyOf n =>
      have array : Solid (['A', 'N', 'Y', '('] ++ spelledPlaceholder n ++ [')']) :=
        IsRun.append (IsRun.append (solid_of_all (List.cons_ne_nil _ _) rfl)
          (solid_placeholder n).passes) (List.all_eq_true.mp rfl)
      exact .cons (solid_of_all (List.cons_ne_nil '=' []) rfl) (.word array)
  | compares comparison n =>
      cases comparison <;>
        exact .cons (solid_of_all (List.cons_ne_nil _ _) rfl) (.word (solid_placeholder n))
  | between low high => exact neat_range low high
  | like n => exact neat_like n
  | ilike n => exact neat_ilike n
  | isNull =>
      exact .cons (solid_of_all (List.cons_ne_nil 'I' ['S']) rfl)
        (.word (solid_of_all (List.cons_ne_nil _ _) rfl))
  | isNotNull =>
      exact .cons (solid_of_all (List.cons_ne_nil 'I' ['S']) rfl)
        (neat_not (.word (solid_of_all (List.cons_ne_nil _ _) rfl)))
  | notLike n => exact neat_not (neat_like n)
  | notIlike n => exact neat_not (neat_ilike n)
  | notBetween low high => exact neat_not (neat_range low high)

theorem neat_conjunct (f : Conjunct) : Neat f.spelled :=
  .cons f.column.solid_letters (neat_test f.test)

theorem neat_conjuncts {text : List Char} (h : Neat text) (filters : List Conjunct) :
    Neat (text ++ spelledRest filters) := by
  induction filters generalizing text with
  | nil => simpa [spelledRest] using h
  | cons f filters ih =>
      have conjunction : Neat ('A' :: 'N' :: 'D' :: ' ' :: f.spelled) :=
        .cons (solid_of_all (List.cons_ne_nil 'A' ['N', 'D']) rfl) (neat_conjunct f)
      have next := ih (h.join conjunction)
      simpa [spelledRest] using next

theorem neat_query (table : Name) (f : Conjunct) (filters : List Conjunct) :
    Neat (query table (f :: filters)).toList := by
  rw [toList_query]
  exact .cons (solid_of_all (List.cons_ne_nil 'S' ['E', 'L', 'E', 'C', 'T']) rfl)
    (.cons (solid_of_all (List.cons_ne_nil '*' []) rfl)
      (.cons (solid_of_all (List.cons_ne_nil 'F' ['R', 'O', 'M']) rfl)
        (.cons table.solid_letters
          (.cons (solid_of_all (List.cons_ne_nil 'W' ['H', 'E', 'R', 'E']) rfl)
            (neat_conjuncts (neat_conjunct f) filters)))))

theorem normalForm_query (table : Name) (f : Conjunct) (filters : List Conjunct) :
    normalForm (query table (f :: filters)).toList = (query table (f :: filters)).toList :=
  (neat_query table f filters).normalForm_of_neat

theorem namesBehind_eq (text : List Char) (keywords : List (List Char)) : namesBehind text keywords =
    ((referencePattern keywords).valuesFrom (Cursor.start text)).map
      fun word => String.ofList (lower word) := by
  simp [namesBehind, Pattern.allIn, Pattern.valuesFrom]

theorem tables_query (table : Name) (f : Conjunct) (filters : List Conjunct) :
    tables (query table (f :: filters)) = [table.text] := by
  generalize htext : (query table (f :: filters)).toList = text
  have first : namesBehind text [['f', 'r', 'o', 'm']] = [table.text] := by
    rw [namesBehind_eq, ← htext, valuesFrom_from, List.map_singleton, table.lower_letters, table.ofList_letters]
  have others : ∀ keywords ∈ referenceKeywords.tail,
      (namesBehind text keywords).filter (fun name => !isReservedName name) = [] := by
    intro keywords member
    rw [namesBehind_eq, List.filter_eq_nil_iff]
    intro name hname
    obtain ⟨word, hword, rfl⟩ := List.mem_map.mp hname
    rw [← htext] at hword
    rw [valuesFrom_other member table f filters word hword]
    decide
  have rest : (referenceKeywords.tail.flatMap (namesBehind text)).filter
      (fun name => !isReservedName name) = [] := by
    rw [List.filter_flatMap, List.flatMap_eq_nil_iff]
    exact others
  have split : referenceKeywords = [['f', 'r', 'o', 'm']] :: referenceKeywords.tail := rfl
  rw [tables, normalForm_query, htext, tablesIn, split, List.flatMap_cons, List.filter_append, rest,
    first, List.append_nil]
  simp [table.unreserved, distinct]

/-- The conditions of a family are those of what its pattern finds. -/
theorem conditionsIn_eq (f : Family) (text : List Char) (parameters : List Value) :
    f.conditionsIn text parameters = (do
      let found ← (f.pattern.valuesFrom (Cursor.start text)).mapM fun p => p.condition? parameters f.kind
      return found.filterMap id) := by
  rw [Pattern.valuesFrom, List.mapM_map]
  rfl

/-- What the conditions of a family are. -/
theorem conditionsIn_of_reports {f : Family} {parameters : List Value} {text : List Char}
    {contents : List (Option String × String × Operator × List Value)}
    (h : Reports parameters f.kind (f.pattern.valuesFrom (Cursor.start text)) contents) :
    ∃ found, f.conditionsIn text parameters = .ok found ∧ found.map Condition.fields = contents := by
  obtain ⟨conditions, read, same⟩ := h
  refine ⟨conditions.filterMap id, ?_, same⟩
  rw [conditionsIn_eq, read]
  rfl

theorem conditionsIn_flatMap {parameters : List Value} {text : List Char}
    {contents : Family → List (Option String × String × Operator × List Value)}
    (families : List Family)
    (h : ∀ f ∈ families, ∃ found, f.conditionsIn text parameters = .ok found ∧
      found.map Condition.fields = contents f) :
    ∃ found, conditionsIn families text parameters = .ok found ∧
      found.map Condition.fields = families.flatMap contents := by
  suffices ∃ rows, families.mapM (fun f => f.conditionsIn text parameters) = .ok rows ∧
      rows.flatten.map Condition.fields = families.flatMap contents by
    obtain ⟨rows, read, same⟩ := this
    refine ⟨rows.flatten, ?_, same⟩
    rw [conditionsIn, read]
    rfl
  induction families with
  | nil => exact ⟨[], rfl, rfl⟩
  | cons f families ih =>
      obtain ⟨found, read, same⟩ := h f (List.mem_cons_self ..)
      obtain ⟨rows, others, sames⟩ := ih fun g member => h g (List.mem_cons_of_mem _ member)
      refine ⟨found :: rows, mapM_eq_ok_iff.mpr (.cons read (mapM_eq_ok_iff.mp others)), ?_⟩
      rw [List.flatten_cons, List.map_append, List.flatMap_cons, same, sames]

/-- The contents that a family finds in a conjunction. -/
def Family.contents (parameters : List Value) (filters : List Conjunct) (f : Family) :
    List (Option String × String × Operator × List Value) :=
  if f.qualified then [] else filters.flatMap (Conjunct.reported parameters f.kind)

theorem contents_all (parameters : List Value) (filters : List Conjunct) :
    Family.all.flatMap (Family.contents parameters filters) = denotation parameters filters := by
  simp [Family.all, Family.contents, denotation, reportOrder]

theorem conditions_query (table : Name) {f : Conjunct} {filters : List Conjunct}
    {parameters : List Value} (few : parameters.length < 10 ^ maxDigits)
    (fits : ∀ g ∈ f :: filters, g.test.Fits parameters) :
    ∃ found, conditions (query table (f :: filters)) parameters = .ok found ∧
      found.map Condition.fields = denotation parameters (f :: filters) := by
  rw [conditions, normalForm_query, ← contents_all]
  refine conditionsIn_flatMap _ fun family _ => conditionsIn_of_reports ?_
  obtain ⟨kind, qualified⟩ := family
  cases qualified with
  | false => exact valuesFrom_query kind table fits few
  | true =>
      have noPoint := (neat_query table f filters).no_mark '.' rfl (by decide)
      rw [Cursor.start, valuesFrom_qualified kind noPoint]
      exact .nil

/-- From a statement that selects from a table the rows on which some filters hold, the table is found,
and the conditions are those that the filters denote. The number of parameters is bounded by what the
digits of an index can write. -/
theorem conjunction_extracted (table : Name) {filters : List Conjunct} (nonempty : filters ≠ [])
    {parameters : List Value} (few : parameters.length < 10 ^ maxDigits)
    (fits : ∀ f ∈ filters, f.test.Fits parameters) :
    tables (query table filters) = [table.text] ∧
      ∃ found, conditions (query table filters) parameters = .ok found ∧
        found.map Condition.fields = denotation parameters filters := by
  cases filters with
  | nil => exact absurd rfl nonempty
  | cons f filters => exact ⟨tables_query table f filters, conditions_query table few fits⟩

/-- Columns named like the operators of the filters on them. -/
def keywordFilters : List Conjunct :=
  [⟨⟨"in", by decide, by decide⟩, .notIn 1 [2], by decide⟩,
   ⟨⟨"like", by decide, by decide⟩, .like 3, by decide⟩,
   ⟨⟨"is", by decide, by decide⟩, .isNotNull, by decide⟩,
   ⟨⟨"between", by decide, by decide⟩, .notBetween 1 2, by decide⟩,
   ⟨⟨"any", by decide, by decide⟩, .anyOf 4, by decide⟩]

def keywordTable : Name :=
  ⟨"update", by decide, by decide⟩

def keywordParameters : List Value :=
  [.int 1, .int 2, .text "a%", .list [.int 3, .int 4]]

theorem keywordFilters_extracted :
    tables (query keywordTable keywordFilters) = ["update"] ∧
      ∃ found, conditions (query keywordTable keywordFilters) keywordParameters = .ok found ∧
        found.map Condition.fields =
          [(none, "in", .notIn, [.int 1, .int 2]), (none, "any", .anyOf, [.int 3, .int 4]),
           (none, "like", .like, [.text "a%"]), (none, "is", .isNotNull, [])] := by
  refine conjunction_extracted keywordTable (List.cons_ne_nil _ _) (by decide +kernel) ?_
  simp only [List.forall_mem_cons]
  refine ⟨⟨by decide, nofun⟩, ⟨by decide, nofun⟩, ⟨by decide, nofun⟩, ⟨by decide, nofun⟩, ⟨by decide, ?_⟩,
    by simp⟩
  intro n same
  cases same
  exact ⟨nofun, nofun⟩

end QueryHarvest.Sql
