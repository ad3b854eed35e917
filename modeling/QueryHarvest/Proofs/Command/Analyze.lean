import QueryHarvest.Command.Analyze
import QueryHarvest.Proofs.Session.Origins
import QueryHarvest.Proofs.Sql.Sources
import QueryHarvest.Proofs.Subset.Jobs

/-! # How the analysis of a log ends

A log is analysed, or it is told what is wrong with it, and the command succeeds or fails. There is one
other end: the search of a statement breaks off at a number that is too long, or at an operator in which
a letter beyond ASCII was taken for a variant of an ASCII letter. No policy about malformed lines is
asked then.
-/

namespace QueryHarvest.Command

open Session Subset Job Capture Files Sql

section

variable {s : Settings} {shown : String} {w : Workspace}

theorem run_renderAnalysis {a : Analysis} {fragments : List Fragment}
    (rendered : render a.conditions = .ok fragments) (w : Workspace) :
    (renderAnalysis a).run w = (.ok fragments, w) := by
  rw [renderAnalysis, rendered]
  rfl

/-- How the command ends when the analysis has come to some value. -/
theorem run_runAnalyze {value : Except AnalysisError Analysis}
    (outcome : (analyzeReading s.maxLength (readLog w.files shown s.policy)).value = value)
    (raw : Bool) :
    ((runAnalyze s shown raw).run w).1 =
      match value with
      | .ok _ => .ok .success
      | .error (.input _) => .ok .failure
      | .error error => .error (.analysis error) := by
  simp only [runAnalyze, analyzeLog, run_bind, run_files, run_modify, outcome]
  cases value with
  | ok a =>
      cases raw with
      | true => rfl
      | false =>
          simp only [run_pure, run_bind, map_eq_pure_bind, Bool.false_eq_true, if_false,
            run_renderAnalysis (render_of_analyzeReading outcome)]
          rfl
  | error e => cases e <;> rfl

end

/-- The search of a statement breaks off with an error. The statement is not too long to be searched, but
a number in it is too long, or one of two letters occurs in it. -/
structure BreaksOff (limit : Nat) (record : Record) (error : ExtractionError) : Prop where
  searched : isTooLong limit record.query = false
  notPlain : ¬ Plain record.query.toList
  failed : conditions record.query record.parameters = .error error

theorem breaksOff_of_failure? {limit : Nat} {record : Record} {error : ExtractionError}
    (failed : failure? limit record = some error) : BreaksOff limit record error := by
  rw [failure?, analyzeQuery] at failed
  cases tooLong : isTooLong limit record.query with
  | true => simp [tooLong] at failed
  | false =>
      cases read : conditions record.query record.parameters with
      | ok found => simp [tooLong, read] at failed
      | error e =>
          simp only [tooLong, read, error_bind, Bool.false_eq_true, if_false,
            Option.some.injEq] at failed
          subst failed
          refine ⟨tooLong, fun plain => ?_, read⟩
          obtain ⟨found, searched, -⟩ := exists_conditionsIn plain.normalForm record.parameters
          rw [conditions, searched] at read
          cases read

/-- Whatever a log holds, under either policy and any limit: its analysis comes to a result and the
command succeeds, or to an error of the input and the command fails, or else a statement of the log
breaks off, and with it the analysis and the command. -/
theorem runAnalyze_ends (s : Settings) (shown : String) (raw : Bool) (w : Workspace) :
    let log := readLog w.files shown s.policy
    let outcome := (analyzeReading s.maxLength log).value
    let exit := ((runAnalyze s shown raw).run w).1
    (∃ a, outcome = .ok a ∧ exit = .ok .success) ∨
    (∃ error, log.error = some error ∧ outcome = .error (.input error) ∧ exit = .ok .failure) ∨
    ∃ record ∈ log.records, ∃ error, BreaksOff s.maxLength record error ∧
      outcome = .error (.extraction error) ∧ exit = .error (.analysis (.extraction error)) := by
  intro log outcome exit
  have ended {value : Except AnalysisError Analysis} (same : outcome = value) :=
    run_runAnalyze same raw
  cases stopped : log.error with
  | some error =>
      have same : outcome = .error (.input error) := by
        simp only [outcome, analyzeReading, stopped]
      exact .inr (.inl ⟨error, rfl, same, ended same⟩)
  | none =>
      have read : outcome = (Session.analyze s.maxLength log.records).value := by
        simp only [outcome, analyzeReading, stopped]
      have kinds : ∀ record ∈ log.records, JsonParameters record := jsonParameters_of_mem_readLog
      have ends := analyze_ends s.maxLength kinds
      split at ends
      · next error failed =>
        obtain ⟨record, member, failed⟩ := List.exists_of_findSome?_eq_some failed
        have same := read.trans ends
        exact .inr (.inr ⟨record, member, error, breaksOff_of_failure? failed, same, ended same⟩)
      · obtain ⟨a, result⟩ := ends
        have same := read.trans result
        exact .inl ⟨a, same, ended same⟩

/-- A log of one statement, in which the second letter of the operator is a capital with a dot. -/
def dottedLike : Workspace :=
  { files := { entries := [(["log"], .file (.text
      "\x7b\"query\": \"SELECT * FROM t WHERE a LİKE $1\", \"params\": [1]\x7d\n") false)] } }

def skippingSettings : Settings :=
  { toolHome := Path.ofText "/opt/jailer", policy := .skip }

/-- Even where malformed lines are skipped, the analysis of the log and the command break off. -/
theorem dottedLike_breaksOff :
    (analyzeReading skippingSettings.maxLength
        (readLog dottedLike.files "log" skippingSettings.policy)).value =
      .error (.extraction (.condition (.unknownOperator "LİKE"))) ∧
    ((runAnalyze skippingSettings "log" false).run dottedLike).1 =
      .error (.analysis (.extraction (.condition (.unknownOperator "LİKE")))) := by
  have stopped : (analyzeReading skippingSettings.maxLength
      (readLog dottedLike.files "log" skippingSettings.policy)).value.map (fun _ => ()) =
        .error (.extraction (.condition (.unknownOperator "LİKE"))) := by
    decide +kernel
  have outcome := map_eq_error_iff.mp stopped
  exact ⟨outcome, run_runAnalyze outcome false⟩

end QueryHarvest.Command
