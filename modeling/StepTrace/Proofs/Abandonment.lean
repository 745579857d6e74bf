import StepTrace.Proofs.Handover
import StepTrace.Proofs.Unbounded

/-!
# Abandoned runs

A consumer that takes `k` steps and refuses the next one gets the first `k` steps of the run
for a consumer that takes every step, and the refusal is what stops its run. If there are no
more than `k` steps the two runs are one and the same, and so are their ends.
-/

namespace StepTrace.Capture.Instrumented

variable (program : Capture.Instrumented)

/-- The two runs with the same bound. -/
theorem abandoned_runWithin (bound k : Nat) :
    (∀ h : k < (program.runWithin bound none).trace.size,
      (program.runWithin bound (some k)).trace = (program.runWithin bound none).trace.take k ∧
      (program.runWithin bound (some k)).outcome =
        .stopped (.refused (program.runWithin bound none).trace[k])) ∧
    ((program.runWithin bound none).trace.size ≤ k →
      program.runWithin bound (some k) = program.runWithin bound none) := by
  simp only [trace_runWithin, List.size_toArray]
  refine ⟨fun h => ?_, fun h => (program.process bound).run_accepting #[] h⟩
  obtain ⟨htrace, hstop⟩ := (program.orderly_process bound).run_refusing #[] h
  refine ⟨?_, hstop⟩
  rw [runWithin, htrace]
  simp

/-- **Abandoning a run is a clean prefix**, with every bound and without a bound. -/
theorem abandoned_run (k : Nat) :
    (∀ bound, let full := program.runWithin bound none
      let cut := program.runWithin bound (some k)
      (∀ h : k < full.trace.size,
        cut.trace = full.trace.take k ∧ cut.outcome = .stopped (.refused full.trace[k])) ∧
      (full.trace.size ≤ k → cut = full)) ∧
    (∀ steps step, steps.length = k → program.Offers (steps ++ [step]) →
      ∃ cut, program.Ends (some k) cut ∧ cut.trace = steps.toArray ∧
        cut.outcome = .stopped (.refused step)) ∧
    ((∀ steps, program.Offers steps → steps.length ≤ k) →
      ∀ run, program.Ends (some k) run ↔ program.Ends none run) := by
  refine ⟨fun bound => program.abandoned_runWithin bound k, ?_, fun hfew run => ?_⟩
  · rintro steps step rfl ⟨bound, rest, hrest⟩
    have hfull : (program.runWithin bound none).trace = (steps ++ [step] ++ rest).toArray := by
      rw [hrest]
    have hlt : steps.length < (program.runWithin bound none).trace.size := by simp [hfull]
    obtain ⟨htrace, hstop⟩ := (program.abandoned_runWithin bound steps.length).1 hlt
    refine ⟨program.runWithin bound (some steps.length), ⟨?_, bound, rfl⟩, ?_, ?_⟩
    · rw [hstop]
      simp
    · simp [htrace, hfull]
    · simp [hstop, hfull]
  · have hsame (bound : Nat) : program.runWithin bound (some k) = program.runWithin bound none :=
      (program.abandoned_runWithin bound k).2 (hfew _ ⟨bound, List.prefix_rfl⟩)
    simp only [Ends, hsame]

/-- Two statements, each with a capture behind it. -/
def twoSteps : Capture.Instrumented where
  source := "0;\n1;\n"
  program :=
    [.expr (.number 0 ⟨1, 1⟩) ⟨1, 1⟩, .capture 1, .expr (.number 1 ⟨2, 1⟩) ⟨2, 1⟩, .capture 2]
  candidates := []

theorem trace_twoSteps (bound : Nat) :
    (twoSteps.runWithin bound none).trace = #[⟨1, []⟩, ⟨2, []⟩] := by
  simp [trace_runWithin, twoSteps, process, execProgram, execStmts, hoist, execEach, execStmt,
    evalExpr, Eval.frame, Eval.leaving, Eval.complete, Syntax.Stmt.simpleLine?,
    Eval.capture_apply, Eval.hand, Process.steps, Process.andThen, Process.leaving, Step.observe,
    Eval.changeEnv]

theorem abandoned_run_twoSteps :
    (twoSteps.runWithin 0 (some 1)).trace = (twoSteps.runWithin 0 none).trace.take 1 ∧
    twoSteps.runWithin 0 (some 2) = twoSteps.runWithin 0 none ∧
    (∃ cut, twoSteps.Ends (some 1) cut ∧ cut.trace = [⟨1, []⟩].toArray ∧
      cut.outcome = .stopped (.refused ⟨2, []⟩)) ∧
    ∀ run, twoSteps.Ends (some 2) run ↔ twoSteps.Ends none run := by
  have hone := abandoned_run twoSteps 1
  have htwo := abandoned_run twoSteps 2
  refine ⟨((hone.1 0).1 ?_).1, (htwo.1 0).2 ?_, hone.2.1 [⟨1, []⟩] ⟨2, []⟩ rfl ⟨0, ?_⟩,
    htwo.2.2 ?_⟩
  · rw [trace_twoSteps]
    decide
  · rw [trace_twoSteps]
    decide
  · simp [trace_twoSteps]
  · rintro steps ⟨bound, hsteps⟩
    rw [trace_twoSteps] at hsteps
    exact hsteps.length_le

end StepTrace.Capture.Instrumented
