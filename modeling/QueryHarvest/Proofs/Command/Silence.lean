import QueryHarvest.Proofs.Command.Generate
import QueryHarvest.Proofs.Subset.Silence

/-! # Runs whose export writes nothing

When the export of a run writes nothing, the run is a failure if nothing stood at its output before, and is
taken for a success if something did.
-/

namespace QueryHarvest.Command

open Session Subset Job Files FileTree Target

variable {s : Settings} {outside : Outside} {w v : Workspace}

theorem quiet_analyzeLog (s : Settings) (shown : String) : Quiet (analyzeLog s shown) := by
  intro w
  simp only [analyzeLog, run_bind, run_files, run_modify]
  split <;> rfl

theorem quiet_renderAnalysis (a : Analysis) : Quiet (renderAnalysis a) := by
  intro w
  rw [renderAnalysis]
  split <;> rfl

theorem quiet_reportOutput (output : Path) : Quiet (reportOutput output) := by
  intro w
  simp only [reportOutput, run_bind, run_files]
  split
  · exact ((Tells.report _).bind ((Tells.report _).bind (Tells.report _))).quiet w
  · rfl
  · rfl

section

variable {tool : Tool} {target : Target} {subjects : List Fragment} {output : Path}

/-- What follows on a job of the tool that is tried, unless that job fails in some other way. -/
theorem tryTool_starts {β : Type} {job : Job Unit} {next : Except ToolError Unit → Job β}
    {result : Except RunError β} (h : (tryTool job >>= next).run w = (result, v)) :
    (∃ error, job.run w = (.error error, v) ∧ ∀ e, error ≠ .tool e) ∨
      ∃ ending w₁, job.run w = (ending.mapError .tool, w₁) ∧
        (next ending).run w₁ = (result, v) := by
  have attempted : job.attempt.run w = (.ok (job.run w).1, (job.run w).2) := rfl
  rw [run_bind, tryTool, run_bind, attempted] at h
  cases ran : job.run w with
  | mk first w₁ =>
      rw [ran] at h
      cases first with
      | ok => exact .inr ⟨.ok (), w₁, rfl, h⟩
      | error error =>
          cases error with
          | tool error => exact .inr ⟨.error error, w₁, rfl, h⟩
          | reading | analysis | writing | noSubjects =>
              cases h
              exact .inl ⟨_, rfl, nofun⟩

/-- Without the first command there is no second one. -/
theorem none_second {words : List String} {succeeded good : Prop} (tried : Tried words w v succeeded good)
    (fresh : w.calls = []) : v.calls[1]? = none := by
  cases tried with
  | notRun _ calls => rw [calls, fresh]; rfl
  | run _ calls => rw [calls, fresh]; rfl

/-- The fourth step, from the point where the extraction model has been written. -/
theorem export_silent {result : Except RunError Bool} {first call : Call} (before : w.calls = [first])
    (h : (do
      match ← tryTool (tool.exportSubset outside target (outside.temporary.child "extraction.csv")
          (outside.temporary.child "datamodel") output (outside.temporary.child "tmp")) with
      | .error error =>
        let _ ← giveUp "Jailer extraction failed" [error.message]
        return false
      | .ok _ => return true : Job Bool).run w = (result, v))
    (ran : v.calls[1]? = some call) (silent : outside.SilentAt 1 call.files output) :
    ∃ succeeded, result = .ok succeeded ∧ (succeeded ↔ outside.LeavesOld 1 call.files output) := by
  have only {w₁ : Workspace} (calls : w₁.calls = w.calls) (alike : v.calls = w₁.calls) : False := by
    rw [alike, calls, before] at ran
    cases ran
  have number : w.calls.length = 1 := by rw [before]; rfl
  have judged {ended : Except RunError Unit} {w₁ : Workspace} {second : Call}
      (exported : (tool.exportSubset outside target (outside.temporary.child "extraction.csv")
        (outside.temporary.child "datamodel") output (outside.temporary.child "tmp")).run w = (ended, w₁))
      (calls : w₁.calls = w.calls ++ [second]) (alike : v.calls = w₁.calls) :
      Tool.Judged outside 1 call.files output ended := by
    have same : call = second := by
      rw [alike, calls, before] at ran
      cases ran
      rfl
    rw [← number] at silent ⊢
    exact Tool.exportSubset_silent exported (same ▸ calls) silent
  rcases tryTool_starts h with ⟨error, exported, other⟩ | ⟨ending, w₁, exported, h⟩
  · cases Tool.exportSubset_run exported with
    | notRun _ calls => exact (only calls rfl).elim
    | run second calls =>
        obtain ⟨e, same⟩ := (judged exported calls rfl).bad nofun
        exact absurd (Except.error.inj same) (other e)
  · have alike : v.calls = w₁.calls ∧ result = .ok (ending = .ok ()) := by
      cases ending with
      | error error =>
          obtain ⟨rfl, alike⟩ := ((tells_giveUp _ _).bind (Tells.pure false)).ends h
          exact ⟨alike.calls, by simp⟩
      | ok =>
          cases h
          exact ⟨rfl, by simp⟩
    obtain ⟨alike, rfl⟩ := alike
    refine ⟨_, rfl, ?_⟩
    cases Tool.exportSubset_run exported with
    | notRun _ calls => exact (only calls alike).elim
    | run second calls =>
        rw [← (judged exported calls alike).good]
        cases ending <;> simp

theorem extract_silent {result : Except RunError Bool} {call : Call} (fresh : w.calls = [])
    (h : (extract tool outside target subjects output).run w = (result, v)) (ran : v.calls[1]? = some call)
    (silent : outside.SilentAt 1 call.files output) :
    ∃ succeeded, result = .ok succeeded ∧ (succeeded ↔ outside.LeavesOld 1 call.files output) := by
  have second {w₁ : Workspace} (none : w₁.calls[1]? = none) (same : v.calls = w₁.calls) : False := by
    rw [same, none] at ran
    cases ran
  obtain ⟨w₁, alike₁, h⟩ := (Tells.report _).starts h
  replace fresh := alike₁.calls.trans fresh
  rcases tryTool_starts h with ⟨error, built, -⟩ | ⟨ending, w₂, built, h⟩
  · exact (second (none_second (Tool.buildModel_run built) fresh) rfl).elim
  cases ending with
  | error error =>
      obtain ⟨-, alike⟩ := ((tells_giveUp _ _).bind (Tells.pure false)).ends h
      exact (second (none_second (Tool.buildModel_run built) fresh) alike.calls).elim
  | ok =>
      cases Tool.buildModel_run built with
      | notRun failed _ => exact absurd rfl failed
      | run first calls =>
          rw [fresh] at calls
          obtain ⟨w₃, alike₃, h⟩ := (Tells.report _).starts h
          obtain ⟨w₄, alike₄, h⟩ := (Tells.report _).starts h
          obtain ⟨w₅, alike₅, h⟩ := (Tells.forM fun _ => Tells.report _).starts h
          have before : w₅.calls = [first] := by
            rw [alike₅.calls, alike₄.calls, alike₃.calls, calls]
            rfl
          replace h := files_starts h
          cases model : writeModel w₅.files (outside.temporary.child "extraction.csv") subjects with
          | error error =>
              have same : v = w₅ := by
                rw [model] at h
                cases error <;> cases h <;> rfl
              rw [same, before] at ran
              cases ran
          | ok t =>
              rw [model] at h
              rw [run_bind] at h
              exact export_silent (w := { w₅ with files := t }) before h ran silent

/-- What a run has come to whose export was run over some files and wrote nothing. -/
structure Reported (outside : Outside) (output : Path) (files : FileTree)
    (result : Except RunError ExitCode) (w : Workspace) : Prop where
  /-- The exit code tells of a success just where something old was left. -/
  code : ∀ code, result = .ok code → (code = .success ↔ outside.LeavesOld 1 files output)
  /-- Where nothing was, the run is a failure, or cannot remove its directory for temporary files. -/
  failed : ¬ outside.LeavesOld 1 files output → result = .ok .failure ∨
    ∃ error, result = .error (.file error) ∧ w.files.removeTree outside.temporary = .error error

/-- How a run ends whose export was tried. -/
def finish (outside : Outside) (output : Path) (job : Job Bool) : Job ExitCode := do
  let succeeded ← job.finallyDo (removeTemporary outside.temporary)
  if succeeded then
    reportOutput output
    return .success
  else return .failure

theorem calls_of_finish {job : Job Bool} {result : Except RunError ExitCode}
    (h : (finish outside output job).run w = (result, v)) : v.calls = (job.run w).2.calls := by
  refine calls_of_finallyDo (quiet_change _) (fun succeeded => ?_) h
  split
  · exact (quiet_reportOutput output).bind fun _ => (Tells.pure _).quiet
  · exact (Tells.pure _).quiet

theorem finish_silent {job : Job Bool} {result : Except RunError ExitCode} {files : FileTree}
    {succeeded : Bool} {w₁ : Workspace} (tried : job.run w = (.ok succeeded, w₁))
    (told : succeeded ↔ outside.LeavesOld 1 files output)
    (h : (finish outside output job).run w = (result, v)) : Reported outside output files result v := by
  rw [finish, run_bind, finallyDo_run, tried, removeTemporary, run_change] at h
  cases removed : (if w₁.files.has outside.temporary then w₁.files.removeTree outside.temporary
      else .ok w₁.files) with
  | error error =>
      rw [removed] at h
      cases h
      refine ⟨nofun, fun _ => .inr ⟨error, rfl, ?_⟩⟩
      split at removed
      · exact removed
      · cases removed
  | ok t =>
      rw [removed] at h
      cases succeeded with
      | false =>
          cases h
          refine ⟨?_, fun _ => .inl rfl⟩
          rintro _ ⟨⟩
          exact iff_of_false nofun fun old => absurd (told.mpr old) nofun
      | true =>
          have old := told.mp rfl
          refine ⟨?_, fun new => absurd old new⟩
          rintro code rfl
          obtain ⟨_, w₂, -, h⟩ := of_bind h
          obtain ⟨rfl, -⟩ := of_pure h
          exact iff_of_true rfl old

theorem harvest_silent {input : Path} {allConditions : Bool} {result : Except RunError ExitCode}
    {call : Call} (fresh : w.calls = [])
    (h : (harvest s tool outside target input output allConditions).run w = (result, v))
    (ran : v.calls[1]? = some call) (silent : outside.SilentAt 1 call.files output) :
    Reported outside output call.files result v := by
  have started {w₁ : Workspace} (none : w₁.calls = []) (same : v.calls = w₁.calls) : False := by
    rw [same, none] at ran
    cases ran
  obtain ⟨w₁, alike₁, h⟩ := (Tells.report _).starts h
  replace fresh := alike₁.calls.trans fresh
  rcases (quiet_analyzeLog s input.text).starts h with same | ⟨analysed, w₂, -, calls, h⟩
  · exact (started fresh same).elim
  replace fresh := calls.trans fresh
  cases analysed with
  | error error =>
      obtain ⟨-, told⟩ := (tells_giveUp _ _).ends h
      exact (started fresh told.calls).elim
  | ok a =>
      rcases (quiet_renderAnalysis a).starts h with same | ⟨rendered, w₃, -, calls, h⟩
      · exact (started fresh same).elim
      replace fresh := calls.trans fresh
      obtain ⟨w₄, alike₄, h⟩ := (tells_reportAnalysis a rendered).starts h
      replace fresh := alike₄.calls.trans fresh
      dsimp only at h
      by_cases empty : rendered.isEmpty
      · rw [if_pos empty] at h
        obtain ⟨-, told⟩ := (tells_giveUp _ _).ends h
        exact (started fresh told.calls).elim
      · rw [if_neg empty] at h
        rcases (quiet_change _).starts h with same | ⟨_, w₅, -, calls, h⟩
        · exact (started fresh same).elim
        generalize (if allConditions then rendered else rendered.take 1) = subjects at h
        cases tried : (extract tool outside target subjects output).run w₅ with
        | mk ended w₆ =>
            have same := calls_of_finish h
            rw [tried] at same
            rw [same] at ran
            obtain ⟨succeeded, rfl, told⟩ := extract_silent (calls.trans fresh) tried ran silent
            exact finish_silent tried told h

end

/-- A run that gives up where something is missing runs no command. -/
theorem guarded_starts {present : Bool} {failure : String} {next : Job ExitCode}
    {result : Except RunError ExitCode}
    (h : (if !present then giveUp failure [] else next).run w = (result, v)) :
    v.calls = w.calls ∨ next.run w = (result, v) := by
  cases present with
  | false => exact .inl ((tells_giveUp _ _).ends h).2.calls
  | true => exact .inr h

theorem runGenerate_silent {input output : String} {choice : Choice} {allConditions : Bool}
    {result : Except RunError ExitCode} {call : Call} (fresh : w.calls = [])
    (h : (runGenerate s outside input output choice allConditions).run w = (result, v))
    (ran : v.calls[1]? = some call) (silent : outside.SilentAt 1 call.files (.ofText output)) :
    Reported outside (.ofText output) call.files result v := by
  have started {w₁ : Workspace} (none : w₁.calls = []) (same : v.calls = w₁.calls) : False := by
    rw [same, none] at ran
    cases ran
  obtain ⟨w₀, alike₀, h⟩ := (Tells.numberSteps 4).starts h
  obtain ⟨w₁, alike₁, h⟩ := (Tells.report _).starts h
  obtain ⟨w₂, alike₂, h⟩ := (Tells.report _).starts h
  replace fresh := ((alike₀.trans alike₁).trans alike₂).calls.trans fresh
  rcases guarded_starts (files_starts h) with same | h
  · exact (started fresh same).elim
  obtain ⟨w₃, alike₃, h⟩ := (Tells.report _).starts h
  replace fresh := alike₃.calls.trans fresh
  rcases guarded_starts (files_starts h) with same | h
  · exact (started fresh same).elim
  obtain ⟨w₄, alike₄, h⟩ := (Tells.report _).starts h
  replace fresh := alike₄.calls.trans fresh
  cases chosen : choice.target s with
  | error error =>
      rw [chosen] at h
      exact (started fresh ((tells_giveUp _ _).ends h).2.calls).elim
  | ok target =>
      rw [chosen] at h
      obtain ⟨w₅, alike₅, h⟩ := (Tells.report _).starts h
      obtain ⟨w₆, alike₆, h⟩ := (Tells.report _).starts h
      exact harvest_silent ((alike₅.trans alike₆).calls.trans fresh) h ran silent

/-- An export that creates and writes nothing at its output is taken for a good one if and only if its command
ends with status zero and leaves what has stood there before, and so is a run with an exit code. Otherwise the
tool fails, and the run is a failure, unless it cannot remove its directory for temporary files. -/
theorem silent_export_reported (outside : Outside) :
    (∀ (tool : Tool) (target : Target) (extractionModel dataModel output storage : Path) (w v : Workspace)
        (result : Except RunError Unit) (call : Call),
      (tool.exportSubset outside target extractionModel dataModel output storage).run w = (result, v) →
      v.calls = w.calls ++ [call] → outside.SilentAt w.calls.length call.files output →
      Tool.Judged outside w.calls.length call.files output result) ∧
    ∀ (s : Settings) (input output : String) (choice : Choice) (allConditions : Bool) (files : FileTree)
        (result : Except RunError ExitCode) (w : Workspace) (call : Call),
      (runGenerate s outside input output choice allConditions).run { files } = (result, w) →
      w.calls[1]? = some call → outside.SilentAt 1 call.files (.ofText output) →
      Reported outside (.ofText output) call.files result w := by
  constructor
  · intro _ _ _ _ _ _ _ _ _ _ h ran silent
    exact Tool.exportSubset_silent h ran silent
  · intro _ _ _ _ _ _ _ _ _ h ran silent
    exact runGenerate_silent rfl h ran silent

/-- A tool whose commands end well and do nothing. -/
def idleTool : Outside :=
  { obedientTool with outcome := fun _ => .finished id {} }

theorem silentAt_idleTool (number : Nat) (files : FileTree) (p : Path) :
    idleTool.SilentAt number files p := by
  rintro changes finished entry ⟨⟩ found
  exact found

/-- An export of the shop, as it is run by a tool that does nothing. -/
def idleExport : Job Unit :=
  (⟨.ofText "/jailer", ""⟩ : Tool).exportSubset idleTool ⟨"localhost", "5432", "shop", "me", ""⟩
    (.ofText "model") (.ofText "data") (.ofText "seed.sql") (.ofText "storage")

/-- A run on the log of the shop with a tool that does nothing. -/
def idleRun : Job ExitCode :=
  runGenerate shopSettings idleTool "log" "seed.sql" {} false

theorem idleTool_fails :
    (∃ v call, idleExport.run { files := filteredOrders } =
      (.error (.tool (.nothingWritten "seed.sql")), v) ∧ v.calls = [call] ∧
        Tool.Judged idleTool 0 call.files (.ofText "seed.sql")
          (.error (.tool (.nothingWritten "seed.sql")))) ∧
    ∃ w call, idleRun.run { files := filteredOrders } = (.ok .failure, w) ∧ w.calls[1]? = some call ∧
      Reported idleTool (.ofText "seed.sql") call.files (.ok .failure) w := by
  have exported : (idleExport.run { files := filteredOrders }).1 =
        .error (.tool (.nothingWritten "seed.sql")) ∧
      (idleExport.run { files := filteredOrders }).2.calls.length = 1 := by
    decide +kernel
  have ended : (idleRun.run { files := filteredOrders }).1 = .ok .failure ∧
      (idleRun.run { files := filteredOrders }).2.calls.length = 2 := by
    decide +kernel
  constructor
  · generalize run : idleExport.run { files := filteredOrders } = r at exported
    obtain ⟨result, v⟩ := r
    obtain ⟨rfl, one⟩ := exported
    obtain ⟨call, single⟩ := List.length_eq_one_iff.mp one
    exact ⟨v, call, rfl, single, (silent_export_reported idleTool).1 _ _ _ _ _ _ _ _ _ _ run single
      (silentAt_idleTool _ _ _)⟩
  · generalize run : idleRun.run { files := filteredOrders } = r at ended
    obtain ⟨result, w⟩ := r
    obtain ⟨rfl, two⟩ := ended
    have ran : w.calls[1]? = some w.calls[1] := List.getElem?_eq_getElem _
    exact ⟨w, _, rfl, ran, (silent_export_reported idleTool).2 _ _ _ _ _ _ _ _ _ run ran
      (silentAt_idleTool _ _ _)⟩

/-- The same log and tool, beside the output of an earlier run. -/
def seededOrders : FileTree :=
  filteredOrders.put ["seed.sql"] (.file (.text "INSERT;") false)

/-- The output of an earlier run is taken for a new one, though it stands there as it was. -/
theorem earlier_output_reported :
    (∀ number files, idleTool.SilentAt number files (.ofText "seed.sql")) ∧
    (idleExport.run { files := seededOrders }).1 = .ok () ∧
    (idleRun.run { files := seededOrders }).1 = .ok .success ∧
    (idleRun.run { files := seededOrders }).2.files.read (.ofText "seed.sql") = .ok (.text "INSERT;") :=
  ⟨fun number files => silentAt_idleTool number files _, by decide +kernel⟩

end QueryHarvest.Command
