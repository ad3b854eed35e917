import Mathlib
import QueryHarvest.Subset.Tool

/-! # How jobs run

A job that consists of several comes to an end through all of them, one after the other, each of which
starts in the workspace that the one before has left. Many jobs only tell something.
-/

namespace QueryHarvest.Subset.Job

open Files

variable {α β : Type} {w v : Workspace}

@[simp] theorem run_pure (a : α) (w : Workspace) : (pure a : Job α).run w = (.ok a, w) := rfl

@[simp] theorem run_bind (job : Job α) (next : α → Job β) (w : Workspace) :
    (job >>= next).run w = match job.run w with
      | (.ok a, w) => (next a).run w
      | (.error error, w) => (.error error, w) := by
  simp only [ExceptT.run, bind, ExceptT.bind, ExceptT.mk, StateT.bind]
  cases job w with
  | mk result w => cases result <;> rfl

@[simp] theorem run_get (w : Workspace) : (get : Job Workspace).run w = (.ok w, w) := rfl

@[simp] theorem run_files (w : Workspace) : Job.files.run w = (.ok w.files, w) := rfl

@[simp] theorem run_modify (f : Workspace → Workspace) (w : Workspace) :
    (modify f : Job Unit).run w = (.ok (), f w) := rfl

@[simp] theorem run_change (f : FileTree → Except FileError FileTree) (w : Workspace) :
    (change f).run w = match f w.files with
      | .ok t => (.ok (), { w with files := t })
      | .error error => (.error (.file error), w) := by
  simp only [change, run_bind, run_files]
  cases f w.files <;> rfl

section

variable {job : Job α} {next : α → Job β}

/-- A job that ends well has come through its first part. -/
theorem of_bind {b : β} (h : (job >>= next).run w = (.ok b, v)) :
    ∃ a w₁, job.run w = (.ok a, w₁) ∧ (next a).run w₁ = (.ok b, v) := by
  rw [run_bind] at h
  split at h
  · next a w₁ first => exact ⟨a, w₁, first, h⟩
  · cases h

theorem of_files {next : FileTree → Job β} {b : β} (h : (Job.files >>= next).run w = (.ok b, v)) :
    (next w.files).run w = (.ok b, v) := by
  rwa [run_bind, run_files] at h

theorem of_pure {a b : α} (h : (pure a : Job α).run w = (.ok b, v)) : b = a ∧ v = w := by
  cases h
  exact ⟨rfl, rfl⟩

theorem of_change {f : FileTree → Except FileError FileTree} (h : (change f).run w = (.ok (), v)) :
    ∃ t, f w.files = .ok t ∧ v = { w with files := t } := by
  rw [run_change] at h
  split at h
  · next t changed =>
    cases h
    exact ⟨t, changed, rfl⟩
  · cases h

theorem of_attempt {result : Except RunError α} (h : job.attempt.run w = (.ok result, v)) :
    job.run w = (result, v) := by
  cases h
  rfl

/-- When a job with a last job ends well, both have. -/
theorem of_finallyDo {last : Job Unit} {a : α} (h : (job.finallyDo last).run w = (.ok a, v)) :
    ∃ w₁, job.run w = (.ok a, w₁) ∧ last.run w₁ = (.ok (), v) := by
  obtain ⟨result, w₁, attempted, h⟩ := of_bind h
  obtain ⟨_, w₂, done, h⟩ := of_bind h
  cases result with
  | ok =>
      cases h
      exact ⟨w₁, of_attempt attempted, done⟩
  | error => cases h

end

/-- Two workspaces with the same files and the same commands. -/
structure Alike (w v : Workspace) : Prop where
  files : v.files = w.files
  calls : v.calls = w.calls

theorem Alike.trans {u : Workspace} (h : Alike w v) (h' : Alike v u) : Alike w u :=
  ⟨h'.files.trans h.files, h'.calls.trans h.calls⟩

/-- A job that ends well with a result, and only tells something. -/
def Tells (job : Job α) (a : α) : Prop :=
  ∀ w, ∃ v, job.run w = (.ok a, v) ∧ Alike w v

theorem Tells.pure (a : α) : Tells (Pure.pure a : Job α) a :=
  fun w => ⟨w, rfl, rfl, rfl⟩

theorem Tells.report (r : Report) : Tells (Job.report r) () :=
  fun _ => ⟨_, rfl, rfl, rfl⟩

theorem Tells.numberSteps (total : Nat) : Tells (Job.numberSteps total) () :=
  fun _ => ⟨_, rfl, rfl, rfl⟩

theorem Tells.note (severity : Severity) (message : String) : Tells (Job.note severity message) () :=
  fun _ => ⟨_, rfl, rfl, rfl⟩

section

variable {job : Job α} {next : α → Job β} {a : α} {b : β}

theorem Tells.bind (first : Tells job a) (later : Tells (next a) b) : Tells (job >>= next) b := by
  intro w
  obtain ⟨w₁, told, alike₁⟩ := first w
  obtain ⟨v, ended, alike₂⟩ := later w₁
  refine ⟨v, ?_, alike₁.trans alike₂⟩
  rw [run_bind, told]
  exact ended

theorem Tells.forM {items : List β} {job : β → Job PUnit} (each : ∀ item, Tells (job item) ⟨⟩) :
    Tells (items.forM job) ⟨⟩ := by
  induction items with
  | nil => exact Tells.pure _
  | cons item items ih => exact (each item).bind ih

/-- What follows on a job that tells starts with the same files and the same commands. -/
theorem Tells.starts {result : Except RunError β} (first : Tells job a)
    (h : (job >>= next).run w = (result, v)) :
    ∃ w₁, Alike w w₁ ∧ (next a).run w₁ = (result, v) := by
  obtain ⟨w₁, told, alike⟩ := first w
  rw [run_bind, told] at h
  exact ⟨w₁, alike, h⟩

theorem Tells.ends {result : Except RunError α} (tells : Tells job a) (h : job.run w = (result, v)) :
    result = .ok a ∧ Alike w v := by
  obtain ⟨v', told, alike⟩ := tells w
  cases told.symm.trans h
  exact ⟨rfl, alike⟩

end

end QueryHarvest.Subset.Job
