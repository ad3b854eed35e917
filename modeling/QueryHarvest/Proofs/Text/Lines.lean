import QueryHarvest.Proofs.Text.Searching
import QueryHarvest.Text.Blank
import QueryHarvest.Text.Line

/-! # Lines written and cut again

Texts that hold no line break, each ended by a line feed, are the lines of what they make together.
-/

namespace QueryHarvest.Text

@[simp] theorem intercalate_cons {α : Type} (separator first : List α) (others : List (List α)) :
    separator.intercalate (first :: others) = first ++ others.flatMap (separator ++ ·) := by
  induction others generalizing first with
  | nil => simp
  | cons next others ih => rw [List.intercalate_cons_cons, ih, List.flatMap_cons]; simp

section

variable {mark : Char} {written : List (List Char)}

/-- No piece of a text that was cut at a mark holds the mark. -/
theorem not_mem_of_mem_splitOn {text piece : List Char} (h : piece ∈ text.splitOn mark) :
    mark ∉ piece := by
  induction text generalizing piece with
  | nil =>
      rw [List.splitOn_nil, List.mem_singleton] at h
      simp [h]
  | cons c text ih =>
      rw [List.splitOn_cons_eq_if_modifyHead] at h
      split at h
      · rcases List.mem_cons.mp h with rfl | later
        · simp
        · exact ih later
      · next other =>
        cases pieces : text.splitOn mark with
        | nil => exact absurd pieces (List.splitOn_ne_nil _ _)
        | cons first rest =>
            rw [pieces] at h ih
            rcases List.mem_cons.mp h with rfl | later
            · rw [List.mem_cons, not_or]
              exact ⟨fun same => other (by simp [same]), ih (List.mem_cons_self ..)⟩
            · exact ih (List.mem_cons_of_mem _ later)

/-- Lines that are separated by a mark are cut at it, and at their own marks. -/
theorem splitOn_separated (nonempty : written ≠ []) :
    ([mark].intercalate written).splitOn mark = written.flatMap (·.splitOn mark) := by
  induction written with
  | nil => exact absurd rfl nonempty
  | cons line rest ih =>
      cases rest with
      | nil => simp
      | cons next rest =>
          rw [List.intercalate_cons_cons, List.append_assoc, List.singleton_append,
            List.splitOn_append_cons_self, ih (List.cons_ne_nil _ _)]
          rfl

/-- Lines are their own pieces just where they hold no mark. -/
theorem flatMap_splitOn_eq_iff :
    written.flatMap (·.splitOn mark) = written ↔ ∀ line ∈ written, mark ∉ line := by
  constructor
  · intro same line member
    rw [← same] at member
    obtain ⟨_, -, piece⟩ := List.mem_flatMap.mp member
    exact not_mem_of_mem_splitOn piece
  · intro whole
    rw [List.flatMap_congr fun line member => List.splitOn_eq_singleton (whole line member)]
    exact List.flatMap_singleton' written

theorem flatMap_ended (nonempty : written ≠ []) :
    written.flatMap (· ++ [mark]) = [mark].intercalate written ++ [mark] := by
  induction written with
  | nil => exact absurd rfl nonempty
  | cons line rest ih =>
      cases rest with
      | nil => simp
      | cons next rest =>
          rw [List.flatMap_cons, ih (List.cons_ne_nil _ _), List.intercalate_cons_cons]
          simp

theorem mem_intercalate {separator : String} (other : mark ∉ separator.toList) (parts : List String) :
    mark ∈ (separator.intercalate parts).toList ↔ ∃ part ∈ parts, mark ∈ part.toList := by
  rw [String.toList_intercalate]
  cases parts with
  | nil => simp
  | cons first rest => simp [other]

end

/-- A text without carriage returns keeps its line ends. -/
theorem unifyNewlines_eq {text : List Char} (h : ∀ c ∈ text, c ≠ '\r') : unifyNewlines text = text := by
  have fronts : (withNext text).map Prod.fst = text := by
    refine List.map_fst_zip ?_
    simp
    omega
  have single : unifyNewlines text = (withNext text).flatMap fun pair => [pair.1] := by
    refine List.flatMap_congr ?_
    rintro ⟨c, next⟩ member
    have other : (c == '\r') = false := beq_false_of_ne (h c (List.of_mem_zip member).1)
    simp only [other, Bool.false_eq_true, if_false]
  calc unifyNewlines text = (withNext text).flatMap (fun pair => [pair.1]) := single
    _ = (withNext text).map Prod.fst := List.map_eq_flatMap.symm
    _ = text := fronts

theorem unifyNewlines_whole {text : List Char} : ∀ c ∈ unifyNewlines text, c ≠ '\r' := by
  intro c member
  obtain ⟨⟨d, next⟩, -, member⟩ := List.mem_flatMap.mp member
  by_cases returns : d = '\r'
  · subst returns
    cases decide (next = some '\n') <;> simp_all
  · simp only [beq_false_of_ne returns, Bool.false_eq_true, if_false, List.mem_singleton] at member
    rwa [member]

/-- Line ends that were made alike do not change the lines. -/
theorem linesOf_unifyNewlines (text : String) :
    linesOf (String.ofList (unifyNewlines text.toList)) = linesOf text := by
  rw [linesOf, linesOf, String.toList_ofList, lines, lines, unifyNewlines_eq unifyNewlines_whole]

theorem foldr_lineStep {line : List Char} (h : ∀ c ∈ line, isLineBreak c = false) (front : List Char)
    (others : List (List Char)) :
    line.foldr lineStep (front :: others) = (line ++ front) :: others := by
  induction line with
  | nil => rfl
  | cons c line ih =>
      have inside := h c (List.mem_cons_self ..)
      rw [List.foldr_cons, ih fun x member => h x (List.mem_cons_of_mem _ member), lineStep, inside]
      rfl

/-- The pieces of a line between the line breaks in it. -/
def cuts (line : List Char) : List (List Char) :=
  line.foldr lineStep [[]]

theorem cuts_eq_single {line : List Char} (h : ∀ c ∈ line, isLineBreak c = false) : cuts line = [line] := by
  rw [cuts, foldr_lineStep h, List.append_nil]

theorem cuts_append {front : List Char} (h : ∀ c ∈ front, isLineBreak c = false) {c : Char}
    (breaks : isLineBreak c) (rest : List Char) : cuts (front ++ c :: rest) = front :: cuts rest := by
  have step : lineStep c (cuts rest) = [] :: cuts rest := if_pos breaks
  rw [cuts, List.foldr_append, List.foldr_cons, ← cuts, step, foldr_lineStep h, List.append_nil]

/-- Induction along the breaks of a line. -/
theorem cuts_induction {P : List Char → Prop}
    (whole : ∀ line, (∀ c ∈ line, isLineBreak c = false) → P line)
    (broken : ∀ front c rest, (∀ c ∈ front, isLineBreak c = false) → isLineBreak c → P rest →
      P (front ++ c :: rest)) (line : List Char) : P line := by
  have parts := List.takeWhile_append_dropWhile (p := (!isLineBreak ·)) (l := line)
  have front : ∀ c ∈ line.takeWhile (!isLineBreak ·), isLineBreak c = false := fun c member => by
    simpa using List.mem_takeWhile_imp member
  cases behind : line.dropWhile (!isLineBreak ·) with
  | nil =>
      rw [behind, List.append_nil] at parts
      exact whole line (parts ▸ front)
  | cons c rest =>
      have stops := List.head?_dropWhile_not (!isLineBreak ·) line
      rw [behind] at stops parts
      have shorter : rest.length < line.length := by
        have := congrArg List.length parts
        simp only [List.length_append, List.length_cons] at this
        omega
      rw [← parts]
      exact broken _ c rest front (by simpa using stops) (cuts_induction whole broken rest)
termination_by line.length

theorem foldr_lineStep_nil (line : List Char) (others : List (List Char)) :
    line.foldr lineStep ([] :: others) = cuts line ++ others := by
  induction line using cuts_induction with
  | whole line h => rw [foldr_lineStep h, cuts_eq_single h, List.append_nil, List.singleton_append]
  | broken front c rest h breaks ih =>
      have step : lineStep c (cuts rest ++ others) = [] :: (cuts rest ++ others) := if_pos breaks
      rw [List.foldr_append, List.foldr_cons, ih, step, foldr_lineStep h, List.append_nil,
        cuts_append h breaks, List.cons_append]

/-- Where a line does not end with a break, it makes no difference that nothing follows. -/
theorem foldr_lineStep_end {line : List Char} {last : Char} (ends : line.getLast? = some last)
    (unbroken : isLineBreak last = false) : line.foldr lineStep [] = cuts line := by
  obtain ⟨front, rfl⟩ := List.getLast?_eq_some_iff.mp ends
  have step : lineStep last [] = lineStep last [[]] := by simp [lineStep, unbroken]
  rw [cuts, List.foldr_append, List.foldr_append]
  simp only [List.foldr_cons, List.foldr_nil, step]

/-- Lines that are each ended by a line feed are cut at it, and at their own breaks. -/
theorem lines_ended {written : List (List Char)} (h : ∀ line ∈ written, ∀ c ∈ line, c ≠ '\r') :
    lines (written.flatMap (· ++ ['\n'])) = written.flatMap cuts := by
  have kept : ∀ c ∈ written.flatMap (· ++ ['\n']), c ≠ '\r' := by
    intro c member
    obtain ⟨line, inside, member⟩ := List.mem_flatMap.mp member
    rcases List.mem_append.mp member with member | member
    · exact h line inside c member
    · rw [List.mem_singleton.mp member]
      decide
  rw [lines, unifyNewlines_eq kept]
  clear h kept
  induction written with
  | nil => rfl
  | cons line written ih =>
      have ended : ['\n'].foldr lineStep (written.flatMap cuts) = [] :: written.flatMap cuts := rfl
      rw [List.flatMap_cons, List.foldr_append, ih, List.foldr_append, ended, foldr_lineStep_nil,
        List.flatMap_cons]

/-- Lines that are separated by line feeds are cut at them, and at their own breaks. -/
theorem lines_separated {written : List (List Char)} (h : ∀ line ∈ written, ∀ c ∈ line, c ≠ '\r')
    (ends : ∀ line ∈ written, ∃ last, line.getLast? = some last ∧ isLineBreak last = false) :
    lines (['\n'].intercalate written) = written.flatMap cuts := by
  have kept : ∀ c ∈ ['\n'].intercalate written, c ≠ '\r' := by
    cases written with
    | nil => nofun
    | cons line rest =>
        obtain ⟨first, others⟩ := List.forall_mem_cons.mp h
        rw [intercalate_cons]
        intro c member
        rcases List.mem_append.mp member with member | member
        · exact first c member
        · obtain ⟨next, inside, member⟩ := List.mem_flatMap.mp member
          rcases List.mem_cons.mp member with rfl | member
          · decide
          · exact others next inside c member
  rw [lines, unifyNewlines_eq kept]
  clear h kept
  induction written with
  | nil => rfl
  | cons line rest ih =>
      obtain ⟨⟨last, behind, unbroken⟩, ends⟩ := List.forall_mem_cons.mp ends
      cases rest with
      | nil =>
          rw [List.intercalate_singleton, foldr_lineStep_end behind unbroken]
          exact (List.append_nil _).symm
      | cons next rest =>
          have ended (lines : List (List Char)) : ['\n'].foldr lineStep lines = [] :: lines := rfl
          rw [List.intercalate_cons_cons, List.foldr_append, ih ends, List.foldr_append, ended,
            foldr_lineStep_nil]
          exact List.flatMap_cons.symm

/-- The lines that were written are cut again. -/
theorem lines_written {written : List (List Char)}
    (h : ∀ line ∈ written, ∀ c ∈ line, isLineBreak c = false) :
    lines (written.flatMap (· ++ ['\n'])) = written := by
  have kept : ∀ line ∈ written, ∀ c ∈ line, c ≠ '\r' := by
    rintro line inside c member rfl
    exact absurd (h line inside _ member) (by decide)
  rw [lines_ended kept, List.flatMap_congr fun line inside => cuts_eq_single (h line inside)]
  exact List.flatMap_singleton' written

/-- A text that neither begins nor ends with a blank keeps its ends. -/
theorem trim_eq {text : List Char} (front : Stops isBlank text) (back : Stops isBlank text.reverse) :
    trim text = text := by
  have kept {chars : List Char} (stops : Stops isBlank chars) : chars.dropWhile isBlank = chars := by
    cases chars with
    | nil => rfl
    | cons c chars => simp [stops c rfl]
  rw [trim, kept front, kept back, List.reverse_reverse]

/-- A text is what remains of it with the blanks at its ends. -/
theorem trim_parts (text : List Char) : ∃ lead trail, text = lead ++ (trim text ++ trail) ∧
    (∀ c ∈ lead, isBlank c) ∧ ∀ c ∈ trail, isBlank c := by
  let behind := (text.dropWhile isBlank).reverse
  refine ⟨text.takeWhile isBlank, (behind.takeWhile isBlank).reverse, ?_,
    fun c => List.mem_takeWhile_imp, fun c member => List.mem_takeWhile_imp (List.mem_reverse.mp member)⟩
  rw [trim, ← List.reverse_append, List.takeWhile_append_dropWhile, List.reverse_reverse,
    List.takeWhile_append_dropWhile]

end QueryHarvest.Text
