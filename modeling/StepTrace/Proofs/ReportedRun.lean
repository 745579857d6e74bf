import StepTrace.Proofs.Abandonment
import StepTrace.Proofs.Stream
import StepTrace.Trace.Report

/-!
# What is reported of a run

A report is about the run for a consumer that takes every step. If that run offers more
steps than the limit admits, the report has as many as the limit, whatever happens behind
them. If not, it has all of them and says how the run ended; a limit that is reached exactly
makes no difference.
-/

namespace StepTrace

/-- What is said about a run that ended and is reported as a whole. -/
inductive Run.HasStatus (run : Run) : Status → Prop
  | failed {fault : Fault} (h : run.outcome = .stopped (.fault fault)) :
    HasStatus run (.failed fault.report)
  | emptyTrace (h : run.outcome = .completed) (hempty : run.trace = #[]) :
    HasStatus run .emptyTrace
  | completed (h : run.outcome = .completed) (hsteps : run.trace ≠ #[]) :
    HasStatus run .completed

/-- The status of a run that is reported as a whole. -/
def Run.status (run : Run) : Status :=
  .ofEnd run.trace.size (.ofOutcome run.outcome)

namespace Capture.Instrumented

variable (program : Capture.Instrumented)

theorem outcome_runWithin (bound : Nat) :
    (program.runWithin bound none).outcome = (program.process bound).ending :=
  Process.outcome_run _ _

/-- The report is about the end that the stream of the steps comes to. -/
theorem reportWithin_endsWithin (bound : Nat) (limit : Option Nat) :
    ∃ handed reason, (program.process bound).EndsWithin limit handed reason ∧
      program.reportWithin bound limit = ⟨handed.toArray, .ofEnd handed.length reason⟩ := by
  obtain ⟨reason, hended⟩ := (StepStream.running_startWithin bound program limit).collect
  have hends := hended.endsWithin
  rw [StepStream.run_eq_of_restart (StepStream.restart_collect _),
    StepStream.limit_eq_of_restart (StepStream.restart_collect _)] at hends
  refine ⟨_, reason, hends, ?_⟩
  simp [reportWithin, hended.outcome]

variable {bound : Nat}

theorem reportWithin_of_more {l : Nat} (h : l < (program.runWithin bound none).trace.size) :
    program.reportWithin bound (some l) =
      ⟨(program.runWithin bound none).trace.take l, .stepLimit l⟩ := by
  obtain ⟨handed, reason, hends, hreport⟩ := program.reportWithin_endsWithin bound (some l)
  rw [trace_runWithin] at h ⊢
  rw [hreport]
  cases hends with
  | limit l hmore => simp [Status.ofEnd]
  | process limit hfits => exact absurd h (Nat.not_lt.mpr (hfits l rfl))

theorem reportWithin_of_fits {limit : Option Nat}
    (h : ∀ l, limit = some l → (program.runWithin bound none).trace.size ≤ l) :
    program.reportWithin bound limit =
      ⟨(program.runWithin bound none).trace, (program.runWithin bound none).status⟩ := by
  obtain ⟨handed, reason, hends, hreport⟩ := program.reportWithin_endsWithin bound limit
  rw [Run.status, outcome_runWithin, trace_runWithin]
  rw [trace_runWithin] at h
  rw [hreport]
  cases hends with
  | limit l hmore => exact absurd hmore (Nat.not_lt.mpr (h l rfl))
  | process limit hfits => rfl

theorem hasStatus_runWithin (hend : (program.runWithin bound none).outcome ≠ .stopped .exhausted) :
    (program.runWithin bound none).HasStatus (program.runWithin bound none).status := by
  have hrefused := (program.orderly_process bound).not_refused #[]
  change ∀ step, (program.runWithin bound none).outcome ≠ .stopped (.refused step) at hrefused
  generalize program.runWithin bound none = full at hend hrefused
  rcases houtcome : full.outcome with _ | ⟨fault | step | _⟩
  · by_cases hempty : full.trace = #[]
    · have hstatus : full.status = .emptyTrace := by
        simp [Run.status, houtcome, hempty, RunEnd.ofOutcome, Status.ofEnd]
      exact hstatus ▸ .emptyTrace houtcome hempty
    · have hstatus : full.status = .completed := by
        simp [Run.status, houtcome, hempty, RunEnd.ofOutcome, Status.ofEnd]
      exact hstatus ▸ .completed houtcome hempty
  · have hstatus : full.status = .failed fault.report := by
      simp [Run.status, houtcome, RunEnd.ofOutcome, RunEnd.ofStop, Status.ofEnd]
    exact hstatus ▸ .failed houtcome
  · exact absurd houtcome (hrefused step)
  · exact absurd houtcome hend

/-- **The report of a run** under every limit, with every bound and without a bound. -/
theorem report_of_run (limit : Option Nat) :
    (∀ bound, let full := program.runWithin bound none
      let report := program.reportWithin bound limit
      (∀ l, limit = some l → l < full.trace.size →
        report = ⟨full.trace.take l, .stepLimit l⟩) ∧
      ((∀ l, limit = some l → full.trace.size ≤ l) → full.outcome ≠ .stopped .exhausted →
        ∃ status, full.HasStatus status ∧ report = ⟨full.trace, status⟩)) ∧
    (∀ l steps, limit = some l → steps.length = l + 1 → program.Offers steps →
      ∃ enough, ∀ bound, enough ≤ bound →
        program.reportWithin bound limit = ⟨(steps.take l).toArray, .stepLimit l⟩) ∧
    (∀ full, program.Ends none full → (∀ l, limit = some l → full.trace.size ≤ l) →
      ∃ status, full.HasStatus status ∧ ∃ enough, ∀ bound, enough ≤ bound →
        program.reportWithin bound limit = ⟨full.trace, status⟩) := by
  refine ⟨fun bound => ⟨?_, fun hfits hend => ?_⟩, ?_, fun full hfull hfits => ?_⟩
  · rintro l rfl hmore
    exact program.reportWithin_of_more hmore
  · exact ⟨_, program.hasStatus_runWithin hend, program.reportWithin_of_fits hfits⟩
  · rintro l steps rfl hlength hoffers
    obtain ⟨enough, hsteps⟩ := hoffers.eventually
    refine ⟨enough, fun bound hle => ?_⟩
    obtain ⟨rest, hrest⟩ := hsteps bound hle
    have hfull : (program.runWithin bound none).trace = (steps ++ rest).toArray := by rw [hrest]
    have hmore : l < (program.runWithin bound none).trace.size := by
      rw [hfull, List.size_toArray, List.length_append]
      omega
    rw [program.reportWithin_of_more hmore, hfull]
    simp [List.take_append_of_le_length, hlength]
  · obtain ⟨enough, hruns⟩ := hfull.eventually
    refine ⟨full.status, ?_, enough, fun bound hle => ?_⟩
    · rw [← hruns enough (Nat.le_refl _)] at hfull ⊢
      exact program.hasStatus_runWithin hfull.1
    · rw [← hruns bound hle] at hfits ⊢
      exact program.reportWithin_of_fits hfits

theorem outcome_twoSteps (bound : Nat) : (twoSteps.runWithin bound none).outcome = .completed := by
  simp [outcome_runWithin, twoSteps, process, execProgram, execStmts, hoist, execEach, execStmt,
    evalExpr, Eval.frame, Eval.leaving, Eval.complete, Syntax.Stmt.simpleLine?,
    Eval.capture_apply, Eval.hand, Process.ending, Process.andThen, Process.leaving,
    Step.observe, Eval.changeEnv]

theorem report_of_run_twoSteps :
    twoSteps.reportWithin 0 (some 1) =
      ⟨(twoSteps.runWithin 0 none).trace.take 1, .stepLimit 1⟩ ∧
    (∃ status, (twoSteps.runWithin 0 none).HasStatus status ∧
      twoSteps.reportWithin 0 (some 2) = ⟨(twoSteps.runWithin 0 none).trace, status⟩) ∧
    (∃ enough, ∀ bound, enough ≤ bound →
      twoSteps.reportWithin bound (some 1) = ⟨#[⟨1, []⟩], .stepLimit 1⟩) ∧
    ∃ status, (twoSteps.runWithin 0 none).HasStatus status ∧ ∃ enough, ∀ bound, enough ≤ bound →
      twoSteps.reportWithin bound none = ⟨(twoSteps.runWithin 0 none).trace, status⟩ := by
  have hone := report_of_run twoSteps (some 1)
  have htwo := report_of_run twoSteps (some 2)
  have hall := report_of_run twoSteps none
  have hend : (twoSteps.runWithin 0 none).outcome ≠ .stopped .exhausted := by
    simp [outcome_twoSteps]
  refine ⟨(hone.1 0).1 1 rfl ?_, (htwo.1 0).2 ?_ hend,
    hone.2.1 1 [⟨1, []⟩, ⟨2, []⟩] rfl rfl ⟨0, ?_⟩, hall.2.2 _ ⟨hend, 0, rfl⟩ (by simp)⟩
  · rw [trace_twoSteps]
    decide
  · rw [trace_twoSteps]
    rintro l ⟨⟩
    decide
  · simp [trace_twoSteps]

end Capture.Instrumented

end StepTrace
