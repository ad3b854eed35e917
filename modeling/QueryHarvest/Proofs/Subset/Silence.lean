import QueryHarvest.Proofs.Subset.Commands

/-! # Exports that write nothing

An export is given up when its command fails, and when nothing stands at its output afterwards. So an export
that writes nothing is taken for a good one where something has stood there before.
-/

namespace QueryHarvest.Subset

open Files FileTree Target Job

namespace Job

variable {α β : Type} {w v : Workspace} {job : Job α} {next : α → Job β}

/-- The job runs no command, however it ends. -/
def Quiet (job : Job α) : Prop :=
  ∀ w, (job.run w).2.calls = w.calls

theorem Tells.quiet {a : α} (h : Tells job a) : Quiet job := by
  intro w
  obtain ⟨v, told, alike⟩ := h w
  rw [told]
  exact alike.calls

theorem quiet_change (f : FileTree → Except FileError FileTree) : Quiet (change f) := by
  intro w
  rw [run_change]
  cases f w.files <;> rfl

theorem Quiet.bind (first : Quiet job) (later : ∀ a, Quiet (next a)) : Quiet (job >>= next) := by
  intro w
  have same := first w
  rw [run_bind]
  cases ran : job.run w with
  | mk result w₁ =>
      rw [ran] at same
      cases result with
      | ok a => exact (later a w₁).trans same
      | error => exact same

theorem files_starts {next : FileTree → Job β} {result : Except RunError β}
    (h : (Job.files >>= next).run w = (result, v)) : (next w.files).run w = (result, v) := by
  rwa [run_bind, run_files] at h

/-- What follows on a quiet job starts with the same commands, if the job does not break off. -/
theorem Quiet.starts {result : Except RunError β} (first : Quiet job)
    (h : (job >>= next).run w = (result, v)) :
    v.calls = w.calls ∨
      ∃ a w₁, job.run w = (.ok a, w₁) ∧ w₁.calls = w.calls ∧ (next a).run w₁ = (result, v) := by
  have same := first w
  rw [run_bind] at h
  cases ran : job.run w with
  | mk ended w₁ =>
      rw [ran] at same h
      cases ended with
      | ok a => exact .inr ⟨a, w₁, rfl, same, h⟩
      | error =>
          cases h
          exact .inl same

/-- A job with a last job ends as it does alone, unless the last job breaks off. -/
theorem finallyDo_run (job : Job α) (last : Job Unit) (w : Workspace) :
    (job.finallyDo last).run w = match last.run (job.run w).2 with
      | (.ok _, w₁) => ((job.run w).1, w₁)
      | (.error error, w₁) => (.error error, w₁) := by
  have attempted : job.attempt.run w = (.ok (job.run w).1, (job.run w).2) := rfl
  rw [finallyDo, run_bind, attempted]
  simp only [run_bind]
  cases last.run (job.run w).2 with
  | mk ended w₁ =>
      cases ended with
      | ok => cases (job.run w).1 <;> rfl
      | error => rfl

/-- What comes behind a job runs no command, if it consists of quiet jobs. -/
theorem calls_of_finallyDo {last : Job Unit} {result : Except RunError β} (quiet : Quiet last)
    (later : ∀ a, Quiet (next a)) (h : (job.finallyDo last >>= next).run w = (result, v)) :
    v.calls = (job.run w).2.calls := by
  have same := quiet (job.run w).2
  rw [run_bind, finallyDo_run] at h
  cases ended : last.run (job.run w).2 with
  | mk done w₁ =>
      rw [ended] at h same
      cases done with
      | error =>
          cases h
          exact same
      | ok =>
          cases ran : (job.run w).1 with
          | error =>
              rw [ran] at h
              cases h
              exact same
          | ok a =>
              rw [ran] at h
              have after := later a w₁
              rw [show (next a).run w₁ = (result, v) from h] at after
              exact after.trans same

end Job

namespace Outside

/-- The command of that number, run over some files, creates and writes nothing at a path: what stands there
afterwards has stood there before. -/
def SilentAt (outside : Outside) (number : Nat) (files : FileTree) (p : Path) : Prop :=
  ∀ changes result entry, outside.outcome number = .finished changes result →
    (changes files).find? p = some entry → files.find? p = some entry

/-- The command of that number, run over some files, ends with status zero, and what has stood at a path
before still stands there. -/
def LeavesOld (outside : Outside) (number : Nat) (files : FileTree) (p : Path) : Prop :=
  ∃ changes result entry, outside.outcome number = .finished changes result ∧ result.status = 0 ∧
    files.find? p = some entry ∧ (changes files).find? p = some entry

end Outside

namespace Tool

variable {tool : Tool} {outside : Outside} {w v : Workspace} {result : Except RunError Unit}

/-- A command that ends well has changed the files. -/
theorem execute_ends {name : String} {arguments : List String}
    (h : (tool.execute outside name arguments).run w = (result, v)) :
    (¬ outside.Succeeds w.calls.length ∧ ∃ error, result = .error (.tool error)) ∨
      (result = .ok () ∧ ∃ changes finished,
        outside.outcome w.calls.length = .finished changes finished ∧
        finished.status = 0 ∧ v.files = changes w.files) := by
  obtain ⟨w₁, alike, h⟩ := (Tells.note _ _).starts h
  rw [run_bind, run_command] at h
  rw [← alike.files, ← alike.calls, Outside.Succeeds]
  cases outcome : outside.outcome w₁.calls.length with
  | refused why =>
      rw [outcome] at h
      cases h
      exact .inl ⟨by simp, _, rfl⟩
  | finished changes finished =>
      rw [outcome] at h
      by_cases zero : finished.status = 0
      · simp only [zero, beq_self_eq_true, if_true] at h
        cases h
        exact .inr ⟨rfl, changes, finished, rfl, zero, rfl⟩
      · simp only [beq_false_of_ne zero, Bool.false_eq_true, if_false] at h
        cases h
        exact .inl ⟨by simp [zero], _, rfl⟩

/-- What an export that has run a silent command comes to. -/
structure Judged (outside : Outside) (number : Nat) (files : FileTree) (output : Path)
    (result : Except RunError Unit) : Prop where
  good : result = .ok () ↔ outside.LeavesOld number files output
  bad : result ≠ .ok () → ∃ error, result = .error (.tool error)

theorem exportSubset_silent {target : Target} {extractionModel dataModel output storage : Path}
    {call : Call}
    (h : (tool.exportSubset outside target extractionModel dataModel output storage).run w = (result, v))
    (ran : v.calls = w.calls ++ [call]) (silent : outside.SilentAt w.calls.length call.files output) :
    Judged outside w.calls.length call.files output result := by
  rcases prepared_run h with ⟨-, calls⟩ | ⟨t, -, h⟩
  · rw [calls] at ran
    simp at ran
  rw [run_bind] at h
  cases executed : (tool.execute outside "export"
      (exportWords target extractionModel dataModel output storage)).run { w with files := t } with
  | mk first w₁ =>
      obtain ⟨calls, -⟩ := execute_run executed
      rw [executed] at h
      rcases execute_ends executed with
        ⟨failed, error, rfl⟩ | ⟨rfl, changes, finished, outcome, zero, files⟩
      · cases h
        refine ⟨iff_of_false nofun ?_, fun _ => ⟨error, rfl⟩⟩
        rintro ⟨changes, finished, -, outcome, zero, -⟩
        exact failed ⟨changes, finished, outcome, zero⟩
      · simp only [run_bind, run_files] at h
        have same : call.files = t := by
          have alike : v.calls = w₁.calls := by
            split at h <;> cases h <;> rfl
          rw [ran, calls, List.append_cancel_left_eq, List.singleton_inj] at alike
          rw [alike]
        subst same
        by_cases there : w₁.files.has output
        · rw [if_pos there] at h
          cases h
          obtain ⟨entry, found⟩ := Option.isSome_iff_exists.mp there
          rw [files] at found
          exact ⟨iff_of_true rfl ⟨changes, finished, entry, outcome, zero,
            silent changes finished entry outcome found, found⟩, fun bad => absurd rfl bad⟩
        · rw [if_neg there] at h
          cases h
          refine ⟨iff_of_false nofun ?_, fun _ => ⟨_, rfl⟩⟩
          rintro ⟨changes', finished', entry, outcome', -, -, found⟩
          rw [outcome] at outcome'
          cases outcome'
          rw [files] at there
          exact there (Option.isSome_iff_exists.mpr ⟨entry, found⟩)

end Tool

end QueryHarvest.Subset
