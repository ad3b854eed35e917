import QueryHarvest.Command.Generate
import QueryHarvest.Proofs.Files.Removing
import QueryHarvest.Proofs.Session.Rendering
import QueryHarvest.Proofs.Subset.Commands

/-! # Runs that generate a subset

A run of the command that ends with an exit code has run the two commands of the tool in their order and
only where the one before has come out well, has given the export the lines that it should, tells by its
exit code whether all went well, and leaves no temporary files.
-/

namespace QueryHarvest.Command

open Session Subset Job Capture Files FileTree Target

theorem tells_giveUp (failure : String) (details : List String) :
    Tells (giveUp failure details) .failure :=
  (Tells.report _).bind ((Tells.forM fun _ => Tells.report _).bind (Tells.pure _))

theorem tells_reportAnalysis (a : Analysis) (rendered : List Fragment) :
    Tells (reportAnalysis a rendered) () := by
  refine (Tells.report _).bind ((Tells.report _).bind ((Tells.report _).bind ?_))
  split
  · exact Tells.pure ()
  · exact Tells.report _

variable {s : Settings} {outside : Outside} {w v : Workspace}

theorem of_tryTool {job : Job Unit} {result : Except ToolError Unit}
    (h : (tryTool job).run w = (.ok result, v)) :
    ∃ first, job.run w = (first, v) ∧ (result = .ok () ↔ first = .ok ()) := by
  obtain ⟨first, w₁, attempted, h⟩ := of_bind h
  have ran := of_attempt attempted
  split at h <;> cases h
  · exact ⟨_, ran, fun _ => rfl, fun _ => rfl⟩
  · exact ⟨_, ran, nofun, nofun⟩

/-- A step of the extraction gives up when the tool fails, and goes on otherwise. -/
theorem of_toolStep {job : Job Unit} {failure : String} {next : Job Bool} {succeeded : Bool}
    (h : (do
      match ← tryTool job with
      | .error error =>
        let _ ← giveUp failure [error.message]
        return false
      | .ok _ => next : Job Bool).run w = (.ok succeeded, v)) :
    (∃ first w₁, job.run w = (first, w₁) ∧ first ≠ .ok () ∧ succeeded = false ∧ Alike w₁ v) ∨
      ∃ w₁, job.run w = (.ok (), w₁) ∧ next.run w₁ = (.ok succeeded, v) := by
  obtain ⟨result, w₁, tried, h⟩ := of_bind h
  obtain ⟨first, ran, same⟩ := of_tryTool tried
  cases result with
  | error error =>
      obtain ⟨ended, alike⟩ := ((tells_giveUp _ _).bind (Tells.pure false)).ends h
      have failed : first ≠ .ok () := fun good => nomatch same.mpr good
      exact .inl ⟨first, w₁, ran, failed, Except.ok.inj ended, alike⟩
  | ok =>
      rw [same.mp rfl] at ran
      exact .inr ⟨w₁, ran, h⟩

/-- An extraction model that was written is read again. -/
theorem read_of_writeModel {t u : FileTree} {p : Path} {subjects : List Fragment}
    (h : writeModel t p subjects = .ok u) : u.read p = .ok (.text (modelText subjects)) := by
  unfold writeModel at h
  split at h
  · cases h
  · cases made : t.makeDirectories p.parent with
    | error error =>
        rw [made] at h
        cases h
    | ok t₁ =>
        rw [made] at h
        cases written : t₁.write p (.text (modelText subjects)) with
        | error error =>
            simp only [Except.bind, written] at h
            cases h
        | ok t₂ =>
            simp only [Except.bind, written] at h
            cases h
            exact read_of_write written

/-- What holds of the commands of an extraction, which succeeds or not. -/
structure Extracted (tool : Tool) (outside : Outside) (target : Target) (subjects : List Fragment)
    (output : Path) (succeeded written : Prop) (calls : List Call) : Prop where
  worded : calls.map Call.words <+: [
    tool.script.text :: Tool.buildModelWords target (outside.temporary.child "datamodel"),
    tool.script.text :: Tool.exportWords target (outside.temporary.child "extraction.csv")
      (outside.temporary.child "datamodel") output (outside.temporary.child "tmp")]
  exported : ∀ call, calls[1]? = some call → outside.Succeeds 0 ∧
    call.files.read (outside.temporary.child "extraction.csv") = .ok (.text (modelText subjects))
  ended : succeeded ↔ calls.length = 2 ∧ outside.Succeeds 0 ∧ outside.Succeeds 1 ∧ written

section

variable {tool : Tool} {target : Target} {subjects : List Fragment} {output : Path}

namespace Extracted

variable {succeeded written : Prop} {first second : Call}

theorem ofNone (failed : ¬ succeeded) :
    Extracted tool outside target subjects output succeeded written [] :=
  ⟨List.nil_prefix, nofun, iff_of_false failed nofun⟩

theorem ofOne (failed : ¬ succeeded) (worded : first.words =
      tool.script.text :: Tool.buildModelWords target (outside.temporary.child "datamodel")) :
    Extracted tool outside target subjects output succeeded written [first] :=
  ⟨by simp [worded], nofun, iff_of_false failed nofun⟩

theorem ofTwo (built : outside.Succeeds 0)
    (read : second.files.read (outside.temporary.child "extraction.csv") =
      .ok (.text (modelText subjects)))
    (ended : succeeded ↔ outside.Succeeds 1 ∧ written)
    (worded₁ : first.words =
      tool.script.text :: Tool.buildModelWords target (outside.temporary.child "datamodel"))
    (worded₂ : second.words =
      tool.script.text :: Tool.exportWords target (outside.temporary.child "extraction.csv")
        (outside.temporary.child "datamodel") output (outside.temporary.child "tmp")) :
    Extracted tool outside target subjects output succeeded written [first, second] where
  worded := by simp [worded₁, worded₂]
  exported call here := by
    cases here
    exact ⟨built, read⟩
  ended := by simp [built, ended]

end Extracted

/-- The fourth step, from the point where the extraction model has been written. -/
theorem export_run {first : Call} {succeeded : Bool} (ran : w.calls = [first])
    (built : outside.Succeeds 0)
    (worded : first.words =
      tool.script.text :: Tool.buildModelWords target (outside.temporary.child "datamodel"))
    (read : w.files.read (outside.temporary.child "extraction.csv") = .ok (.text (modelText subjects)))
    (h : (do
      match ← tryTool (tool.exportSubset outside target (outside.temporary.child "extraction.csv")
          (outside.temporary.child "datamodel") output (outside.temporary.child "tmp")) with
      | .error error =>
        let _ ← giveUp "Jailer extraction failed" [error.message]
        return false
      | .ok _ => return true : Job Bool).run w = (.ok succeeded, v)) :
    Extracted tool outside target subjects output (succeeded = true) (v.files.has output) v.calls := by
  rcases of_toolStep h with ⟨result, w₁, exported, failed, rfl, alike⟩ | ⟨w₁, exported, h⟩
  · rw [alike.calls, alike.files]
    cases Tool.exportSubset_run exported with
    | notRun _ calls =>
        rw [calls, ran]
        exact .ofOne nofun worded
    | run second calls worded₂ kept ended =>
        rw [ran] at calls ended
        rw [calls]
        exact .ofTwo built (kept.read read) (iff_of_false nofun fun good => failed (ended.mpr good))
          worded worded₂
  · obtain ⟨rfl, rfl⟩ := of_pure h
    cases Tool.exportSubset_run exported with
    | notRun failed _ => exact absurd rfl failed
    | run second calls worded₂ kept ended =>
        rw [ran] at calls ended
        rw [calls]
        exact .ofTwo built (kept.read read) (iff_of_true rfl (ended.mp rfl)) worded worded₂

theorem extract_run {succeeded : Bool} (fresh : w.calls = [])
    (h : (extract tool outside target subjects output).run w = (.ok succeeded, v)) :
    Extracted tool outside target subjects output (succeeded = true) (v.files.has output) v.calls := by
  obtain ⟨w₁, alike₁, h⟩ := (Tells.report _).starts h
  have none : w₁.calls = [] := alike₁.calls.trans fresh
  rcases of_toolStep h with ⟨result, w₂, built, failed, rfl, alike⟩ | ⟨w₂, built, h⟩
  · rw [alike.calls]
    cases Tool.buildModel_run built with
    | notRun _ calls =>
        rw [calls, none]
        exact .ofNone nofun
    | run first calls worded _ _ =>
        rw [calls, none]
        exact .ofOne nofun worded
  · cases Tool.buildModel_run built with
    | notRun failed _ => exact absurd rfl failed
    | run first calls worded _ ended =>
        rw [none] at calls ended
        obtain ⟨w₃, alike₃, h⟩ := (Tells.report _).starts h
        obtain ⟨w₄, alike₄, h⟩ := (Tells.report _).starts h
        obtain ⟨w₅, alike₅, h⟩ := (Tells.forM fun _ => Tells.report _).starts h
        have ran : w₅.calls = [first] := by rw [alike₅.calls, alike₄.calls, alike₃.calls, calls]; rfl
        replace h := of_files h
        cases model : writeModel w₅.files (outside.temporary.child "extraction.csv") subjects with
        | error error =>
            rw [model] at h
            cases error <;> cases h
        | ok t =>
            rw [model] at h
            obtain ⟨_, w₆, kept, h⟩ := of_bind h
            cases kept
            exact export_run (w := { w₅ with files := t }) ran (ended.mp rfl) worded
              (read_of_writeModel model) h

theorem of_analyzeLog {shown : String} {result : Except InputError Analysis}
    (h : (analyzeLog s shown).run w = (.ok result, v)) :
    Alike w v ∧ ∀ a, result = .ok a →
      (analyzeReading s.maxLength (readLog w.files shown s.policy)).value = .ok a := by
  replace h := of_files h
  obtain ⟨_, w₁, noted, h⟩ := of_bind h
  cases noted
  split at h
  · next a analysed =>
    cases h
    exact ⟨⟨rfl, rfl⟩, fun _ same => by cases same; exact analysed⟩
  · cases h
    exact ⟨⟨rfl, rfl⟩, nofun⟩
  · cases h

theorem of_renderAnalysis {a : Analysis} {fragments : List Fragment}
    (h : (renderAnalysis a).run w = (.ok fragments, v)) : render a.conditions = .ok fragments ∧ w = v := by
  rw [renderAnalysis] at h
  split at h
  · next rendered =>
    cases h
    exact ⟨rendered, rfl⟩
  · cases h

/-- The directory for temporary files is gone, and no file has come up. -/
theorem of_removeTemporary {p : Path} (below : Files.target (w.files.start p.anchor) p.names ≠ [])
    (h : (removeTemporary p).run w = (.ok (), v)) :
    v.calls = w.calls ∧ v.files.has p = false ∧ ∀ q, v.files.hasFile q → w.files.hasFile q := by
  obtain ⟨t, removed, rfl⟩ := of_change h
  split at removed
  · exact ⟨rfl, has_of_removeTree removed below, fun q there => by
      rw [removeTree_cases removed] at there
      exact hasFile_of_without there⟩
  · next gone =>
    cases removed
    exact ⟨rfl, Bool.eq_false_iff.mpr gone, fun _ there => there⟩

theorem of_reportOutput (h : (reportOutput output).run w = (.ok (), v)) :
    Alike w v ∧ w.files.hasFile output := by
  replace h := of_files h
  split at h
  · next content text read _ =>
    have told := ((Tells.report _).bind ((Tells.report _).bind (Tells.report _))).ends h
    exact ⟨told.2, hasFile_of_read read⟩
  · cases h
  · cases h

theorem harvest_run {input : Path} {allConditions : Bool} {code : ExitCode} (fresh : w.calls = [])
    (absolute : outside.temporary.anchor ≠ .here)
    (h : (harvest s tool outside target input output allConditions).run w = (.ok code, v)) :
    (code = .failure ∧ Alike w v) ∨ ∃ a rendered,
      (analyzeReading s.maxLength (readLog w.files input.text s.policy)).value = .ok a ∧
      render a.conditions = .ok rendered ∧ rendered ≠ [] ∧
      Extracted tool outside target (if allConditions then rendered else rendered.take 1) output
        (code = .success) (v.files.hasFile output) v.calls ∧
      v.files.has outside.temporary = false := by
  obtain ⟨w₁, alike₁, h⟩ := (Tells.report _).starts h
  obtain ⟨result, w₂, analysed, h⟩ := of_bind h
  obtain ⟨alike₂, analysis⟩ := of_analyzeLog analysed
  have alike : Alike w w₂ := alike₁.trans alike₂
  cases result with
  | error error =>
      obtain ⟨ended, told⟩ := (tells_giveUp _ _).ends h
      exact .inl ⟨Except.ok.inj ended, alike.trans told⟩
  | ok a =>
      dsimp only at h
      obtain ⟨rendered, w₃, wrote, h⟩ := of_bind h
      obtain ⟨written, rfl⟩ := of_renderAnalysis wrote
      obtain ⟨w₄, alike₄, h⟩ := (tells_reportAnalysis a rendered).starts h
      have alike := alike.trans alike₄
      by_cases empty : rendered.isEmpty
      · rw [if_pos empty] at h
        obtain ⟨ended, told⟩ := (tells_giveUp _ _).ends h
        exact .inl ⟨Except.ok.inj ended, alike.trans told⟩
      · rw [if_neg empty] at h
        rw [alike₁.files] at analysis
        refine .inr ⟨a, rendered, analysis a rfl, written, by simpa using empty, ?_⟩
        obtain ⟨_, w₅, laid, h⟩ := of_bind h
        obtain ⟨t, made, rfl⟩ := of_change laid
        obtain ⟨succeeded, w₆, extracted, h⟩ := of_bind h
        obtain ⟨w₇, extracted, removed⟩ := of_finallyDo extracted
        -- the directory was made where there was nothing, so its path does not lead to the root
        have below : Files.target (w₇.files.start outside.temporary.anchor)
            outside.temporary.names ≠ [] := by
          have vacant := (makeDirectory_cases made).1
          rw [start_of_absolute absolute] at vacant ⊢
          exact nonempty_of_vacant (t := w₄.files) (by rw [vacant]; nofun)
        obtain ⟨calls, gone, kept⟩ := of_removeTemporary below removed
        have ran := extract_run (w := { w₄ with files := t }) (alike.calls.trans fresh) extracted
        rw [← calls] at ran
        have before (there : w₆.files.hasFile output) : w₇.files.has output :=
          has_of_hasFile (kept output there)
        cases succeeded with
        | true =>
            obtain ⟨_, w₈, reported, h⟩ := of_bind h
            obtain ⟨told, there⟩ := of_reportOutput reported
            obtain ⟨rfl, rfl⟩ := of_pure h
            rw [← told.files] at there gone
            rw [← told.calls] at ran
            obtain ⟨two, first, second, -⟩ := ran.ended.mp rfl
            exact ⟨⟨ran.worded, ran.exported, iff_of_true rfl ⟨two, first, second, there⟩⟩, gone⟩
        | false =>
            obtain ⟨rfl, rfl⟩ := of_pure h
            refine ⟨⟨ran.worded, ran.exported, iff_of_false nofun ?_⟩, gone⟩
            rintro ⟨two, first, second, there⟩
            exact absurd (ran.ended.mpr ⟨two, first, second, before there⟩) nofun

end

/-- A log can be read under the settings, and this is what its analysis comes to. -/
structure Analysed (s : Settings) (files : FileTree) (input : Path) (a : Analysis) : Prop where
  read : (readLog files input.text s.policy).error = none
  analysed : (analyzeReading s.maxLength (readLog files input.text s.policy)).value = .ok a

theorem analysed_of_value {files : FileTree} {input : Path} {a : Analysis}
    (h : (analyzeReading s.maxLength (readLog files input.text s.policy)).value = .ok a) :
    Analysed s files input a := by
  refine ⟨?_, h⟩
  cases read : (readLog files input.text s.policy).error with
  | none => rfl
  | some error => simp [analyzeReading, read] at h

/-- What a run from some files has done that ends with an exit code in a workspace. -/
structure SafeRun (s : Settings) (outside : Outside) (input output : Path) (choice : Choice)
    (allConditions : Bool) (files : FileTree) (code : ExitCode) (w : Workspace) : Prop where
  /-- The commands are those for the data model and for the export, as far as any is run. -/
  worded : w.calls ≠ [] → ∃ target, choice.target s = .ok target ∧ w.calls.map Call.words <+: [
    (s.toolHome.child "jailer.sh").text ::
      Tool.buildModelWords target (outside.temporary.child "datamodel"),
    (s.toolHome.child "jailer.sh").text ::
      Tool.exportWords target (outside.temporary.child "extraction.csv")
        (outside.temporary.child "datamodel") output (outside.temporary.child "tmp")]
  /-- None is run unless the inputs are there and a condition has a table. -/
  ready : w.calls ≠ [] → files.hasFile input ∧ files.has (s.toolHome.child "jailer.sh") ∧
    ∃ a, Analysed s files input a ∧ ∃ c ∈ a.conditions, ∃ table, c.table = some table ∧ table ≠ ""
  /-- The export follows a data model that was built, and reads the lines of its subjects: all rendered
  conditions, or the first. -/
  exported : ∀ call, w.calls[1]? = some call → outside.Succeeds 0 ∧ ∃ a rendered,
    Analysed s files input a ∧ render a.conditions = .ok rendered ∧
    call.files.read (outside.temporary.child "extraction.csv") = .ok (.text (String.join
      ((if allConditions then rendered else rendered.take 1).map fun subject =>
        subject.table ++ "; " ++ subject.condition ++ "\n")))
  code : code = .success ↔
    w.calls.length = 2 ∧ outside.Succeeds 0 ∧ outside.Succeeds 1 ∧ w.files.hasFile output
  removed : w.files.has outside.temporary = false

/-- A run gives up where something is missing, and goes on otherwise. -/
theorem of_guarded {present : Bool} {failure : String} {next : Job ExitCode} {code : ExitCode}
    (h : (if !present then giveUp failure [] else next).run w = (.ok code, v)) :
    (code = .failure ∧ Alike w v) ∨ (present ∧ next.run w = (.ok code, v)) := by
  cases present with
  | false =>
      obtain ⟨failed, told⟩ := (tells_giveUp _ _).ends h
      exact .inl ⟨Except.ok.inj failed, told⟩
  | true => exact .inr ⟨rfl, h⟩

/-- A condition that is rendered has a table. -/
theorem exists_table_of_render {conditions : List Sql.Condition} {fragments : List Fragment}
    (rendered : render conditions = .ok fragments) (nonempty : fragments ≠ []) :
    ∃ c ∈ conditions, ∃ table, c.table = some table ∧ table ≠ "" := by
  obtain ⟨-, rfl⟩ := render_eq_ok_iff.mp rendered
  obtain ⟨f, member⟩ := List.exists_mem_of_ne_nil _ nonempty
  obtain ⟨c, member, written⟩ := List.mem_filterMap.mp member
  obtain ⟨named, filled, -⟩ := written?_eq_some_iff.mp written
  exact ⟨c, member, f.table, named, filled⟩

theorem modelText_eq (subjects : List Fragment) :
    modelText subjects = String.join (subjects.map fun subject =>
      subject.table ++ "; " ++ subject.condition ++ "\n") := by
  rw [modelText, modelLines, List.map_map]
  rfl

/-- Whatever is outside, a run that ends with an exit code is safe. -/
theorem runGenerate_safe (s : Settings) (input output : String) (choice : Choice) (allConditions : Bool)
    {outside : Outside} (absolute : outside.temporary.anchor ≠ .here) {files : FileTree}
    (fresh : files.has outside.temporary = false) {code : ExitCode}
    (ended : (runGenerate s outside input output choice allConditions).run { files } = (.ok code, w)) :
    SafeRun s outside (.ofText input) (.ofText output) choice allConditions files code w := by
  -- a run that gives up has run nothing and changed no file
  have givenUp {v : Workspace} (told : Alike { files } v) (h : code = .failure ∧ Alike v w) :
      SafeRun s outside (.ofText input) (.ofText output) choice allConditions files code w := by
    obtain ⟨same, none⟩ := told.trans h.2
    rw [h.1]
    exact ⟨absurd none, absurd none, by simp [none], iff_of_false nofun (by simp [none]),
      by rw [same]; exact fresh⟩
  obtain ⟨w₀, alike₀, h⟩ := (Tells.numberSteps 4).starts ended
  obtain ⟨w₁, alike₁, h⟩ := (Tells.report _).starts h
  replace alike₁ := alike₀.trans alike₁
  obtain ⟨w₂, alike₂, h⟩ := (Tells.report _).starts h
  rcases of_guarded (of_files h) with stopped | ⟨there, h⟩
  · exact givenUp (alike₁.trans alike₂) stopped
  obtain ⟨w₃, alike₃, h⟩ := (Tells.report _).starts h
  have alike := (alike₁.trans alike₂).trans alike₃
  rcases of_guarded (of_files h) with stopped | ⟨installed, h⟩
  · exact givenUp alike stopped
  rw [(alike₁.trans alike₂).files] at there
  rw [alike.files] at installed
  obtain ⟨w₄, alike₄, h⟩ := (Tells.report _).starts h
  cases chosen : choice.target s with
  | error error =>
      rw [chosen] at h
      obtain ⟨failed, told⟩ := (tells_giveUp _ _).ends h
      exact givenUp (alike.trans alike₄) ⟨Except.ok.inj failed, told⟩
  | ok target =>
      rw [chosen] at h
      obtain ⟨w₅, alike₅, h⟩ := (Tells.report _).starts h
      obtain ⟨w₆, alike₆, h⟩ := (Tells.report _).starts h
      replace alike := (alike.trans alike₄).trans (alike₅.trans alike₆)
      rcases harvest_run alike.calls absolute h with
        stopped | ⟨a, rendered, analysed, written, nonempty, extracted, removed⟩
      · exact givenUp alike stopped
      · rw [alike.files] at analysed
        replace analysed := analysed_of_value analysed
        exact {
          worded := fun _ => ⟨target, chosen, extracted.worded⟩
          ready := fun _ => ⟨there, installed, a, analysed, exists_table_of_render written nonempty⟩
          exported := fun call here => by
            obtain ⟨built, read⟩ := extracted.exported call here
            exact ⟨built, a, rendered, analysed, written, by rw [read, modelText_eq]⟩
          code := extracted.ended
          removed }

/-- A tool that does what it is told. -/
def obedientTool : Outside where
  outcome number := .finished
    (fun files =>
      if number = 1 then files.put ["seed.sql"] (.file (.text "INSERT;") false) else files) {}
  download := .error ""
  databaseError := none
  temporary := ⟨.root, ["tmp", "work"]⟩

/-- A log of one statement with two filters, beside an installed tool. -/
def filteredOrders : FileTree where
  entries := [(["tmp"], .directory), (["jailer"], .directory),
    (["jailer", "jailer.sh"], .file (.text "") true), (["log"], .file (.text
      "\x7b\"query\": \"SELECT * FROM o WHERE a = $1 AND b = 0\", \"params\": [7]\x7d\n") false)]

def shopSettings : Settings :=
  { toolHome := .ofText "/jailer", databaseName := some "shop", user := some "me" }

theorem filteredOrders_safe : ∃ w,
    (runGenerate shopSettings obedientTool "log" "seed.sql" {} false).run { files := filteredOrders } =
      (.ok .success, w) ∧ w.calls.length = 2 ∧
    SafeRun shopSettings obedientTool (.ofText "log") (.ofText "seed.sql") {} false filteredOrders
      .success w := by
  have ended : ((runGenerate shopSettings obedientTool "log" "seed.sql" {} false).run
      { files := filteredOrders }).1 = .ok .success := by
    decide +kernel
  generalize run : (runGenerate shopSettings obedientTool "log" "seed.sql" {} false).run
    { files := filteredOrders } = r at ended
  obtain ⟨result, w⟩ := r
  cases ended
  have absolute : obedientTool.temporary.anchor ≠ .here := by decide
  have fresh : filteredOrders.has obedientTool.temporary = false := by decide
  have safe := runGenerate_safe shopSettings "log" "seed.sql" {} false absolute fresh run
  exact ⟨w, rfl, (safe.code.mp rfl).1, safe⟩

end QueryHarvest.Command
