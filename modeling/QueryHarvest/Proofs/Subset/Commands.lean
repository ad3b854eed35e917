import QueryHarvest.Proofs.Files.Writing
import QueryHarvest.Proofs.Subset.Jobs

/-! # The commands of the tool

Each of the two commands is run at most once, after directories have been made for it, and ends well when
it was started, ended with status zero and, for the export, left its file.
-/

namespace QueryHarvest.Subset

open Files FileTree Target Job

/-- The command of that number is started and ends with status zero. -/
def Outside.Succeeds (outside : Outside) (number : Nat) : Prop :=
  ∃ changes result, outside.outcome number = .finished changes result ∧ result.status = 0

theorem run_command (outside : Outside) (words : List String) (directory : Option Path)
    (w : Workspace) :
    (Job.command outside words directory).run w =
      match outside.outcome w.calls.length with
      | .refused why => (.ok (.error why), { w with calls := w.calls ++ [⟨words, directory, w.files⟩] })
      | .finished changes result =>
        (.ok (.ok result),
          { w with calls := w.calls ++ [⟨words, directory, w.files⟩], files := changes w.files }) := by
  simp only [Job.command, run_bind, run_get]
  cases outside.outcome w.calls.length <;> rfl

/-- What becomes of a job that is to run a command: it fails without it, or runs it, over all files that
were there, and succeeds in some case. -/
inductive Tried (words : List String) (w v : Workspace) (succeeded good : Prop) : Prop
  | notRun (failed : ¬ succeeded) (calls : v.calls = w.calls)
  | run (call : Call) (calls : v.calls = w.calls ++ [call]) (worded : call.words = words)
      (kept : w.files.KeptIn call.files) (ended : succeeded ↔ good)

namespace Tool

variable {tool : Tool} {outside : Outside} {w v : Workspace} {result : Except RunError Unit}

theorem run_requireInstalled (tool : Tool) (w : Workspace) :
    tool.requireInstalled.run w =
      (if tool.isInstalled w.files then .ok () else .error (.tool .notInstalled), w) := by
  simp only [requireInstalled, run_bind, run_files]
  cases tool.isInstalled w.files <;> rfl

theorem execute_run {name : String} {arguments : List String}
    (h : (tool.execute outside name arguments).run w = (result, v)) :
    v.calls = w.calls ++ [⟨tool.script.text :: arguments, some tool.home, w.files⟩] ∧
      (result = .ok () ↔ outside.Succeeds w.calls.length) := by
  obtain ⟨w₁, alike, h⟩ := (Tells.note _ _).starts h
  rw [run_bind, run_command] at h
  rw [← alike.files, ← alike.calls, Outside.Succeeds]
  cases outcome : outside.outcome w₁.calls.length with
  | refused why =>
      rw [outcome] at h
      cases h
      simp
  | finished changes finished =>
      rw [outcome] at h
      by_cases zero : finished.status = 0
      · simp only [zero, beq_self_eq_true, if_true] at h
        cases h
        simp [zero]
      · simp only [beq_false_of_ne zero, Bool.false_eq_true, if_false] at h
        cases h
        simp [zero]

/-- A command that needs the tool and a directory for it. -/
theorem prepared_run {directory : Path} {rest : Job Unit}
    (h : (do
      tool.requireInstalled
      Job.change fun files => files.makeDirectories directory
      rest : Job Unit).run w = (result, v)) :
    (result ≠ .ok () ∧ v.calls = w.calls) ∨
      ∃ t, w.files.KeptIn t ∧ rest.run { w with files := t } = (result, v) := by
  simp only [run_bind, run_requireInstalled, run_change] at h
  cases installed : tool.isInstalled w.files with
  | false =>
      rw [installed] at h
      cases h
      exact .inl ⟨nofun, rfl⟩
  | true =>
      simp only [installed, if_true] at h
      cases made : w.files.makeDirectories directory with
      | ok t =>
          rw [made] at h
          exact .inr ⟨t, makeAlong_kept made, h⟩
      | error error =>
          rw [made] at h
          cases h
          exact .inl ⟨nofun, rfl⟩

theorem buildModel_run {target : Target} {dataModel : Path}
    (h : (tool.buildModel outside target dataModel).run w = (result, v)) :
    Tried (tool.script.text :: buildModelWords target dataModel) w v (result = .ok ())
      (outside.Succeeds w.calls.length) := by
  rcases prepared_run h with ⟨failed, calls⟩ | ⟨t, kept, h⟩
  · exact .notRun failed calls
  · obtain ⟨calls, ended⟩ := execute_run h
    exact .run _ calls rfl kept ended

theorem exportSubset_run {target : Target} {extractionModel dataModel output storage : Path}
    (h : (tool.exportSubset outside target extractionModel dataModel output storage).run w =
      (result, v)) :
    Tried (tool.script.text :: exportWords target extractionModel dataModel output storage) w v
      (result = .ok ()) (outside.Succeeds w.calls.length ∧ v.files.has output) := by
  rcases prepared_run h with ⟨failed, calls⟩ | ⟨t, kept, h⟩
  · exact .notRun failed calls
  rw [run_bind] at h
  cases executed : (tool.execute outside "export"
      (exportWords target extractionModel dataModel output storage)).run { w with files := t } with
  | mk first w₁ =>
      obtain ⟨calls, ended⟩ := execute_run executed
      rw [executed] at h
      cases first with
      | error error =>
          cases h
          exact .run _ calls rfl kept ⟨nofun, fun good => absurd (ended.mpr good.1) nofun⟩
      | ok =>
          simp only [run_bind, run_files] at h
          by_cases written : w₁.files.has output
          · rw [if_pos written] at h
            cases h
            exact .run _ calls rfl kept ⟨fun _ => ⟨ended.mp rfl, written⟩, fun _ => rfl⟩
          · rw [if_neg written] at h
            cases h
            exact .run _ calls rfl kept ⟨nofun, fun good => absurd good.2 written⟩

end Tool

end QueryHarvest.Subset
