import QueryHarvest.Proofs.Files.Writing
import QueryHarvest.Proofs.Json.Numbers
import QueryHarvest.Proofs.Session.Origins
import QueryHarvest.Proofs.Text.Lines
import QueryHarvest.Subset.Model

/-! # Reading an extraction model

The lines of an extraction model are cut again at the line feeds in it, and each at its first semicolon.
What comes out are the conditions that were written, unless a text in one of them holds a line feed: then
its line is broken in two.
-/

namespace QueryHarvest

open Json Number Text

namespace Value

mutual

/-- The texts in a value, also those in arrays. -/
def texts : Value → List String
  | .text s => [s]
  | .list items => textsIn items
  | .tuple items => textsIn items
  | _ => []

def textsIn : List Value → List String
  | [] => []
  | item :: rest => item.texts ++ textsIn rest

end

/-- The value holds a line feed, in one of its texts. -/
def IsBroken (v : Value) : Prop :=
  ∃ s ∈ v.texts, '\n' ∈ s.toList

instance (v : Value) : Decidable v.IsBroken :=
  inferInstanceAs (Decidable (∃ s ∈ v.texts, '\n' ∈ s.toList))

end Value

theorem newline_not_mem_int (n : Int) : '\n' ∉ (toString n).toList := by
  rw [toList_int, List.append_nil, List.mem_append]
  rintro (signed | digit)
  · cases negative : decide (n < 0) <;> simp [sign, negative] at signed
  · exact absurd (isDigit_char_of_mem_toDigits digit) (by decide)

theorem newline_not_mem_float (x : Binary64) : '\n' ∉ x.text.toList := by
  cases x with
  | nan => simp [Binary64.text]
  | infinite negative => cases negative <;> simp [Binary64.text]
  | finite negative mantissa exponent =>
      have signed : '\n' ∉ (if negative then "-" else "").toList := by cases negative <;> simp
      rw [Binary64.text]
      split
      · simpa using signed
      · intro member
        rw [String.toList_append, List.mem_append, or_iff_right signed] at member
        exact absurd (isNumberChar_decimalText _ _ _ member) (by decide)

namespace Value

mutual

/-- What is written of a value that was fixed holds a line feed just where the value does. -/
theorem newline_mem_literalText_iff {v : Value} (h : v.hasJsonKinds) :
    '\n' ∈ v.freeze.literalText.toList ↔ v.freeze.IsBroken := by
  cases v with
  | null => simp [freeze, literalText, IsBroken, texts]
  | bool b => cases b <;> simp [freeze, literalText, IsBroken, texts]
  | int n => simpa [freeze, literalText, IsBroken, texts] using newline_not_mem_int n
  | float x => simpa [freeze, literalText, IsBroken, texts] using newline_not_mem_float x
  | text s => simp [freeze, literalText, plain, IsBroken, texts]
  | object fields => simp [freeze, literalText, plain, IsBroken, texts]
  | list items =>
      rw [freeze, literalText, IsBroken, texts, ← newline_mem_literalTexts_iff h, String.toList_append,
        String.toList_append, List.mem_append, List.mem_append, mem_intercalate (by simp)]
      simp
  | decimal | bytes | buffer | uuid | date | time | dateTime | tuple => cases h
termination_by sizeOf v

theorem newline_mem_literalTexts_iff {items : List Value} (h : haveJsonKinds items) :
    (∃ part ∈ literalTexts (freezeAll items), '\n' ∈ part.toList) ↔
      ∃ s ∈ textsIn (freezeAll items), '\n' ∈ s.toList := by
  cases items with
  | nil => simp [freezeAll, textsIn]
  | cons item rest =>
      simp only [haveJsonKinds, Bool.and_eq_true] at h
      simp only [freezeAll, literalTexts, textsIn, List.exists_mem_cons_iff, List.mem_append, or_and_right,
        exists_or]
      rw [newline_mem_literalText_iff h.1, newline_mem_literalTexts_iff h.2, IsBroken]
termination_by sizeOf items

end

end Value

namespace Session

open Sql

section

variable {column : String} (named : '\n' ∉ column.toList) {literals : List String}

include named

theorem newline_mem_alternativesText_iff {operator : String} (spelled : '\n' ∉ operator.toList) :
    '\n' ∈ (alternativesText column operator literals).toList ↔
      ∃ literal ∈ literals, '\n' ∈ literal.toList := by
  unfold alternativesText
  split
  · simp [named, spelled]
  · simp only [String.toList_append, List.mem_append, mem_intercalate (by simp : '\n' ∉ " OR ".toList)]
    simp [named, spelled]

theorem newline_mem_list_iff {front : String} (spelled : '\n' ∉ front.toList) :
    '\n' ∈ (column ++ front ++ String.intercalate ", " literals ++ ")").toList ↔
      ∃ literal ∈ literals, '\n' ∈ literal.toList := by
  simp only [String.toList_append, List.mem_append, mem_intercalate (by simp : '\n' ∉ ", ".toList)]
  simp [named, spelled]

end

/-- A rendered condition holds a line feed just where a literal in it does. -/
theorem newline_mem_conditionText_iff {c : Condition} (named : '\n' ∉ c.column.toList) :
    '\n' ∈ (conditionText c.column c.operator ((shownValues c).map Value.literalText)).toList ↔
      ∃ v ∈ shownValues c, '\n' ∈ v.literalText.toList := by
  have literals : (∃ v ∈ shownValues c, '\n' ∈ v.literalText.toList) ↔
      ∃ literal ∈ (shownValues c).map Value.literalText, '\n' ∈ literal.toList := by simp
  rw [literals]
  obtain ⟨table, column, operator, values, fits⟩ := c
  cases operator with
  | between =>
      simp only [conditionText, String.toList_append, List.mem_append,
        mem_intercalate (by simp : '\n' ∉ " AND ".toList)]
      simp [named]
  | isNull | isNotNull =>
      simp only [Operator.isNullCheck, List.isEmpty_iff] at fits
      simpa [conditionText, shownValues, fits] using named
  | compares comparison =>
      exact newline_mem_alternativesText_iff named (by cases comparison <;> simp [Comparison.text])
  | like | ilike => exact newline_mem_alternativesText_iff named (by simp [Operator.text])
  | notIn => exact newline_mem_list_iff named (by simp)
  | equals | isIn | anyOf =>
      simp only [conditionText]
      split
      · next literal single => simp [single, named]
      · exact newline_mem_list_iff named (by simp)

end Session

namespace Subset

open Files Session Sql

/-- Cut a line at the first semicolon with a space behind it. -/
def cutLine : List Char → Option (List Char × List Char)
  | ';' :: ' ' :: behind => some ([], behind)
  | c :: line => (cutLine line).map fun (front, behind) => (c :: front, behind)
  | [] => none

def readLine? (line : List Char) : Option Fragment :=
  (cutLine line).map fun (table, condition) => ⟨String.ofList table, String.ofList condition⟩

/-- The lines of the text of a model, without the line feed that ends the last one. -/
def linesOfModel (text : String) : List (List Char) :=
  text.toList.dropLast.splitOn '\n'

/-- Read the text of a model line by line. -/
def readModel? (text : String) : Option (List Fragment) :=
  (linesOfModel text).mapM readLine?

theorem eq_of_cutLine {line front behind : List Char} (h : cutLine line = some (front, behind)) :
    line = front ++ ';' :: ' ' :: behind := by
  induction line using cutLine.induct generalizing front with
  | case1 => simp_all [cutLine]
  | case2 c line other ih =>
      rw [cutLine] at h
      · obtain ⟨⟨front, behind⟩, cut, same⟩ := Option.map_eq_some_iff.mp h
        cases same
        rw [ih cut, List.cons_append]
      · exact other
  | case3 => cases h

@[simp] theorem cutLine_append {front : List Char} (unmarked : ';' ∉ front) (behind : List Char) :
    cutLine (front ++ ';' :: ' ' :: behind) = some (front, behind) := by
  induction front with
  | nil => rfl
  | cons c front ih =>
      rw [List.mem_cons, not_or] at unmarked
      rw [List.cons_append, cutLine, ih unmarked.2, Option.map_some]
      rintro _ rfl
      exact absurd rfl unmarked.1

@[simp] theorem toList_modelLine (f : Fragment) :
    (modelLine f).toList = f.table.toList ++ ';' :: ' ' :: f.condition.toList := by
  simp [modelLine]

/-- A line with a table that holds no semicolon is read as what it was written for, and no other line is
read so. -/
theorem readLine?_eq_some_iff {f : Fragment} (unmarked : ';' ∉ f.table.toList) {line : List Char} :
    readLine? line = some f ↔ line = (modelLine f).toList := by
  rw [toList_modelLine, readLine?, Option.map_eq_some_iff]
  constructor
  · rintro ⟨⟨table, condition⟩, cut, rfl⟩
    simpa using eq_of_cutLine cut
  · rintro rfl
    exact ⟨_, cutLine_append unmarked _, by simp⟩

section

variable {subjects : List Fragment}

theorem toList_modelText (nonempty : subjects ≠ []) :
    (modelText subjects).toList =
      ['\n'].intercalate ((modelLines subjects).map String.toList) ++ ['\n'] := by
  rw [← flatMap_ended (by simpa [modelLines] using nonempty)]
  simp [modelText, List.flatMap_map]

/-- The lines of a model are those of its subjects, cut at the line feeds in them. -/
theorem linesOfModel_modelText (nonempty : subjects ≠ []) :
    linesOfModel (modelText subjects) =
      ((modelLines subjects).map String.toList).flatMap (·.splitOn '\n') := by
  rw [linesOfModel, toList_modelText nonempty, List.dropLast_concat,
    splitOn_separated (by simpa [modelLines] using nonempty)]

theorem mapM_readLine?_eq_some_iff (unmarked : ∀ f ∈ subjects, ';' ∉ f.table.toList)
    {lines : List (List Char)} :
    lines.mapM readLine? = some subjects ↔ lines = (modelLines subjects).map String.toList := by
  rw [mapM_eq_some_iff, modelLines, List.map_map]
  induction subjects generalizing lines with
  | nil => simp
  | cons f rest ih =>
      obtain ⟨first, others⟩ := List.forall_mem_cons.mp unmarked
      rw [List.forall₂_cons_right_iff, List.map_cons, Function.comp_apply]
      constructor
      · rintro ⟨line, lines, read, later, rfl⟩
        rw [(readLine?_eq_some_iff first).mp read, (ih others).mp later]
      · rintro rfl
        exact ⟨_, _, (readLine?_eq_some_iff first).mpr rfl, (ih others).mpr rfl, rfl⟩

/-- A model of tables without semicolons is read as it was written just where no line of it holds a line
feed. -/
theorem readModel?_eq_some_iff (nonempty : subjects ≠ [])
    (unmarked : ∀ f ∈ subjects, ';' ∉ f.table.toList) :
    readModel? (modelText subjects) = some subjects ↔
      ∀ f ∈ subjects, '\n' ∉ (modelLine f).toList := by
  rw [readModel?, linesOfModel_modelText nonempty, mapM_readLine?_eq_some_iff unmarked,
    flatMap_splitOn_eq_iff, modelLines, List.map_map, List.forall_mem_map]
  rfl

theorem exists_writeModel {t : FileTree} {p : Path} (accepts : t.Accepts p) (nonempty : subjects ≠ []) :
    ∃ written, writeModel t p subjects = .ok written ∧
      written.read p = .ok (.text (modelText subjects)) := by
  obtain ⟨made, written, directories, writes⟩ := accepts.write (.text (modelText subjects))
  refine ⟨written, ?_, FileTree.read_of_write writes⟩
  rw [writeModel, List.isEmpty_eq_false_iff.mpr nonempty, directories]
  simp only [Bool.false_eq_true, if_false, Except.bind, writes]
  rfl

end

section

variable {limit : Nat} {files : FileTree} {shown : String} {policy : Capture.MalformedPolicy}
  {a : Analysis} {c : Condition}

theorem newline_not_mem_name {name : String} (h : IsWrittenName name) : '\n' ∉ name.toList :=
  h.unmarked (by decide) (by decide) (by decide) (by decide)

theorem semicolon_not_mem_name {name : String} (h : IsWrittenName name) : ';' ∉ name.toList :=
  h.unmarked (by decide) (by decide) (by decide) (by decide)

/-- A rendered condition is broken just where a value that it shows is. -/
theorem newline_mem_condition_iff (traced : Traced c.key c.values) :
    '\n' ∈ (conditionText c.column c.operator ((shownValues c).map Value.literalText)).toList ↔
      ∃ v ∈ shownValues c, v.IsBroken := by
  rw [newline_mem_conditionText_iff (newline_not_mem_name traced.column)]
  refine exists_congr fun v => and_congr_right fun member => ?_
  obtain ⟨given, read, rfl⟩ := traced.values v (shownValues_subset c member)
  exact Value.newline_mem_literalText_iff read.kinds

/-- The line of a rendered condition is broken just where a value that it shows is. -/
theorem newline_mem_modelLine_iff (traced : Traced c.key c.values) {f : Fragment}
    (written : written? c = some f) :
    '\n' ∈ (modelLine f).toList ↔ ∃ v ∈ shownValues c, v.IsBroken := by
  obtain ⟨table, -, condition⟩ := written?_eq_some_iff.mp written
  rw [← newline_mem_condition_iff traced, condition, toList_modelLine]
  simp [newline_not_mem_name (traced.table _ table)]

/-- Whatever log a model is written for, its conditions are rendered, and its lines are those of the rendered
conditions one behind the other, each broken at the line feeds in it. Reading the lines gives back the
conditions just where no value that is shown holds a line feed. -/
theorem model_read_by_line
    (analysed : (analyzeReading limit (Capture.readLog files shown policy)).value = .ok a) {t : FileTree}
    {p : Path} (accepts : t.Accepts p) :
    ∃ subjects, render a.conditions = .ok subjects ∧ (subjects ≠ [] →
      ∃ written text, writeModel t p subjects = .ok written ∧
        written.read p = .ok (.text text) ∧ text.toList.getLast? = some '\n' ∧
        linesOfModel text = (modelLines subjects).flatMap (·.toList.splitOn '\n') ∧
        (readModel? text = some subjects ↔
          ∀ c ∈ a.conditions, (∃ table ∈ c.table, table ≠ "") → ∀ v ∈ shownValues c, ¬ v.IsBroken)) := by
  refine ⟨_, render_of_analyzeReading analysed, fun nonempty => ?_⟩
  have traced := traced_of_analyzeReading analysed
  have unmarked : ∀ f ∈ a.conditions.filterMap written?, ';' ∉ f.table.toList := by
    intro f member
    obtain ⟨c, inside, rendered⟩ := List.mem_filterMap.mp member
    exact semicolon_not_mem_name ((traced c inside).table _ (written?_eq_some_iff.mp rendered).1)
  obtain ⟨written, writes, read⟩ := exists_writeModel accepts nonempty
  refine ⟨written, _, writes, read, ?_, ?_, ?_⟩
  · rw [toList_modelText nonempty, List.getLast?_concat]
  · rw [linesOfModel_modelText nonempty, List.flatMap_map]
  rw [readModel?_eq_some_iff nonempty unmarked]
  constructor
  · intro whole c member placed v shown broken
    obtain ⟨f, rendered⟩ := Option.isSome_iff_exists.mp (written?_isSome_iff.mpr placed)
    refine whole f (List.mem_filterMap.mpr ⟨c, member, rendered⟩) ?_
    exact (newline_mem_modelLine_iff (traced c member) rendered).mpr ⟨v, shown, broken⟩
  · intro whole f member breaks
    obtain ⟨c, inside, rendered⟩ := List.mem_filterMap.mp member
    obtain ⟨v, shown, broken⟩ := (newline_mem_modelLine_iff (traced c inside) rendered).mp breaks
    exact whole c inside (written?_isSome_iff.mp (Option.isSome_of_eq_some rendered)) v shown broken

end

/-- A log of one statement, with its parameters as they are written. -/
def logOf (statement parameters : String) : FileTree where
  entries := [(["log"], .file (.text
    ("\x7b\"query\": \"" ++ statement ++ "\", \"params\": " ++ parameters ++ "\x7d\n")) false)]

/-- Two filters, the first with the mark that ends a table in its text. -/
def markedLog : FileTree :=
  logOf "SELECT * FROM o WHERE a = $1 AND b = ANY($2)" "[\"x; y\", [[null, 7]]]"

def markedSubjects : List Fragment :=
  [⟨"o", "a = 'x; y'"⟩, ⟨"o", "b = ARRAY[NULL, 7]"⟩]

theorem markedLog_read_by_line :
    ∃ a, (analyzeReading 0 (Capture.readLog markedLog "log" .abort)).value = .ok a ∧
      render a.conditions = .ok markedSubjects ∧ FileTree.Accepts {} (.ofText "work/model.csv") ∧
      ∃ written text, writeModel {} (.ofText "work/model.csv") markedSubjects = .ok written ∧
        written.read (.ofText "work/model.csv") = .ok (.text text) ∧
        readModel? text = some markedSubjects := by
  have told : (analyzeReading 0 (Capture.readLog markedLog "log" .abort)).value.toOption.map
      (fun a => (render a.conditions, decide (∀ c ∈ a.conditions, ∀ v ∈ shownValues c, ¬ v.IsBroken))) =
        some (.ok markedSubjects, true) := by
    decide +kernel
  obtain ⟨a, analysed, told⟩ := exists_of_map_toOption told
  obtain ⟨rendered, whole⟩ := Prod.mk.inj told
  have accepts : FileTree.Accepts {} (.ofText "work/model.csv") :=
    ⟨by decide, by decide, by decide, by decide⟩
  obtain ⟨subjects, same, reads⟩ := model_read_by_line analysed accepts
  cases rendered.symm.trans same
  obtain ⟨written, text, writes, read, -, -, reads⟩ := reads (List.cons_ne_nil _ _)
  exact ⟨a, analysed, rendered, accepts, written, text, writes, read,
    reads.mpr fun c member _ => of_decide_eq_true whole c member⟩

/-- One filter, with a line feed in its text. -/
def brokenLog : FileTree :=
  logOf "SELECT * FROM o WHERE a = $1" "[\"x\\ny\"]"

def brokenSubjects : List Fragment :=
  [⟨"o", "a = 'x\ny'"⟩]

/-- One condition takes two lines, neither of which gives it back. -/
theorem brokenLog_line_in_two :
    ∃ a, (analyzeReading 0 (Capture.readLog brokenLog "log" .abort)).value = .ok a ∧
      render a.conditions = .ok brokenSubjects ∧
      ∃ written text, writeModel {} (.ofText "work/model.csv") brokenSubjects = .ok written ∧
        written.read (.ofText "work/model.csv") = .ok (.text text) ∧
        linesOfModel text = ["o; a = 'x".toList, "y'".toList] ∧ readModel? text = none := by
  have told : (analyzeReading 0 (Capture.readLog brokenLog "log" .abort)).value.toOption.map
      (fun a => render a.conditions) = some (.ok brokenSubjects) := by
    decide +kernel
  obtain ⟨a, analysed, rendered⟩ := exists_of_map_toOption told
  have accepts : FileTree.Accepts {} (.ofText "work/model.csv") :=
    ⟨by decide, by decide, by decide, by decide⟩
  obtain ⟨written, writes, read⟩ := exists_writeModel accepts (List.cons_ne_nil ⟨"o", "a = 'x\ny'"⟩ [])
  exact ⟨a, analysed, rendered, written, _, writes, read, by decide +kernel, by decide +kernel⟩

end Subset

end QueryHarvest
