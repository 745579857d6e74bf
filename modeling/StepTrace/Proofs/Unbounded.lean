import StepTrace.Proofs.CorrespondingPrograms

/-!
# Runs without a bound

A larger bound on nested calls and on rounds only lets a run go on where a smaller one has
exhausted it (`Capture.Instrumented.process_extends`). So it makes sense to speak of a run
without a bound: what it offers is what it offers with a bound that is large enough
(`Offers`), and it ends as it ends with such a bound (`Ends`). A run that does not end
either way is exhausted by every bound.
-/

namespace StepTrace

namespace Process

/-- The second process is the first one with more room: where the first one is exhausted
the second may do as it likes, and anywhere else the two are equal. -/
inductive Extends {α : Type} : Process α → Process α → Prop
  | exhausted (s : State) (q : Process α) : Extends (.stopped .exhausted s) q
  | done (a : α) (s : State) : Extends (.done a s) (.done a s)
  | stopped (stop : Stop) (s : State) : Extends (.stopped stop s) (.stopped stop s)
  | offering (step : Step) {answer answer' : Bool → Process α}
    (h : ∀ taken, Extends (answer taken) (answer' taken)) :
    Extends (.offering step answer) (.offering step answer')

namespace Extends

variable {α β : Type} {p q : Process α}

theorem refl (p : Process α) : Extends p p := by
  induction p with
  | done a s => exact .done a s
  | stopped stop s => exact .stopped stop s
  | offering step answer ih => exact .offering step ih

theorem andThen {next next' : α → State → Process β} (h : Extends p q)
    (hnext : ∀ a s, Extends (next a s) (next' a s)) :
    Extends (p.andThen next) (q.andThen next') := by
  induction h with
  | exhausted s q => exact .exhausted s _
  | done a s => exact hnext a s
  | stopped stop s => exact .stopped stop s
  | offering step _ ih => exact .offering step ih

theorem leaving (leave : Environment → Environment) (h : Extends p q) :
    Extends (p.leaving leave) (q.leaving leave) := by
  induction h with
  | exhausted s q => exact .exhausted _ _
  | done a s => exact .done a _
  | stopped stop s => exact .stopped stop _
  | offering step _ ih => exact .offering step ih

end Extends

/-- A process that is not exhausted runs in the same way with more room. -/
theorem Extends.run_eq {p q : Process Unit} (h : Extends p q) (allowance : Option Nat)
    (trace : Trace) (hend : (p.run allowance trace).outcome ≠ .stopped .exhausted) :
    q.run allowance trace = p.run allowance trace := by
  induction h generalizing allowance trace with
  | exhausted s q => exact absurd rfl hend
  | done a s => rfl
  | stopped stop s => rfl
  | offering step _ ih =>
      rcases allowance with _ | _ | n
      · exact ih true none _ hend
      · exact ih false (some 0) _ hend
      · exact ih true (some n) _ hend

theorem isPrefix_run (p : Process Unit) (allowance : Option Nat) (trace : Trace) :
    trace.toList <+: (p.run allowance trace).trace.toList := by
  induction p generalizing allowance trace with
  | done a s => exact List.prefix_rfl
  | stopped stop s => exact List.prefix_rfl
  | offering step answer ih =>
      have hpush : trace.toList <+: (trace.push step).toList := by simp
      rcases allowance with _ | _ | n
      · exact hpush.trans (ih true none _)
      · exact ih false (some 0) _
      · exact hpush.trans (ih true (some n) _)

/-- With more room at least the same steps are taken. -/
theorem Extends.trace_isPrefix {p q : Process Unit} (h : Extends p q) (allowance : Option Nat)
    (trace : Trace) :
    (p.run allowance trace).trace.toList <+: (q.run allowance trace).trace.toList := by
  induction h generalizing allowance trace with
  | exhausted s q => exact isPrefix_run q allowance trace
  | done a s => exact List.prefix_rfl
  | stopped stop s => exact List.prefix_rfl
  | offering step _ ih =>
      rcases allowance with _ | _ | n
      · exact ih true none _
      · exact ih false (some 0) _
      · exact ih true (some n) _

end Process

/-- Having more room. -/
def Congruence.extension : Congruence where
  Rel m m' := ∀ s : State, Process.Extends (m s) (m' s)
  pure a s := .done a s
  bind hm hf s := by
    rw [Eval.bind_apply, Eval.bind_apply]
    exact (hm s).andThen fun a s => hf a s
  leaving leave _ _ hm s := (hm s).leaving leave
  fault fault s := .stopped (.fault fault) s
  exhausted s := .stopped .exhausted s
  asking hf s := by
    rw [Eval.bind_apply, Eval.bind_apply]
    exact hf s.env s.heap s
  changeEnv change s := .done () (s.changeEnv change)
  changeHeap change _ s := .done () (s.changeHeap change)
  unchecked array s := .refl _
  untested value s := .refl _
  calling s := .refl _
  leaveWith value s := .refl _
  newClosure f s := .refl _
  closureAt place s := .refl _
  capture names line s := .refl _
  complete stmt rest s := .refl _

namespace Congruence

theorem extension_rounds {test test' : Eval Bool} {body body' : Eval Completion}
    {next next' : Eval Unit} (ht : extension.Rel test test') (hb : extension.Rel body body')
    (hn : extension.Rel next next') {bound bound' : Nat} (h : bound ≤ bound') :
    extension.Rel (Eval.rounds test body next bound) (Eval.rounds test' body' next' bound') := by
  induction bound generalizing bound' with
  | zero => exact fun s => .exhausted s _
  | succ bound ih =>
      obtain ⟨bound', rfl⟩ : ∃ n, bound' = n + 1 := ⟨bound' - 1, by omega⟩
      refine extension.bind ht fun goesOn => ?_
      split
      · refine extension.bind hb fun completion => ?_
        split
        · exact extension.pure _
        · exact extension.bind hn fun _ => ih (by omega)
      · exact extension.pure _

theorem extension_callers (names : List String) {bound bound' : Nat} (h : bound ≤ bound') :
    extension.correspondence.Callers (callWithin names bound) (callWithin names bound') := by
  induction bound generalizing bound' with
  | zero => exact fun f args callee loc _ s => .exhausted s _
  | succ bound ih =>
      obtain ⟨bound', rfl⟩ : ∃ n, bound' = n + 1 := ⟨bound' - 1, by omega⟩
      have hle : bound ≤ bound' := by omega
      exact extension.correspondence.programs.callsWithin
        ⟨ih hle, fun ht hb hn => extension_rounds ht hb hn hle, rfl, trivial⟩

end Congruence

namespace Capture.Instrumented

variable (program : Capture.Instrumented)

theorem process_extends {bound bound' : Nat} (h : bound ≤ bound') :
    Process.Extends (program.process bound) (program.process bound') :=
  Congruence.extension.program ⟨Congruence.extension_callers program.candidates h,
    fun ht hb hn => Congruence.extension_rounds ht hb hn h, rfl, trivial⟩ program.program .initial

/-- Without a bound, the run for a consumer that takes so many steps ends, as this run. -/
def Ends (allowance : Option Nat) (run : Run) : Prop :=
  run.outcome ≠ .stopped .exhausted ∧ ∃ bound, program.runWithin bound allowance = run

/-- Without a bound, the run for a consumer that takes every step offers at least these
steps, first of all. -/
def Offers (steps : List Step) : Prop :=
  ∃ bound, steps <+: (program.runWithin bound none).trace.toList

variable {program}

/-- With every bound that is large enough the run ends as it does without a bound. -/
theorem Ends.eventually {allowance : Option Nat} {run : Run} (h : program.Ends allowance run) :
    ∃ enough, ∀ bound, enough ≤ bound → program.runWithin bound allowance = run := by
  obtain ⟨hend, enough, rfl⟩ := h
  exact ⟨enough, fun bound hle => (program.process_extends hle).run_eq allowance #[] hend⟩

/-- With every bound that is large enough the run offers what it offers without a bound. -/
theorem Offers.eventually {steps : List Step} (h : program.Offers steps) :
    ∃ enough, ∀ bound, enough ≤ bound →
      steps <+: (program.runWithin bound none).trace.toList := by
  obtain ⟨enough, hbegins⟩ := h
  refine ⟨enough, fun bound hle => hbegins.trans ?_⟩
  exact (program.process_extends hle).trace_isPrefix none #[]

/-- A run without a bound ends in one way. -/
theorem Ends.unique {allowance : Option Nat} {run run' : Run} (h : program.Ends allowance run)
    (h' : program.Ends allowance run') : run = run' := by
  obtain ⟨enough, hrun⟩ := h.eventually
  obtain ⟨enough', hrun'⟩ := h'.eventually
  rw [← hrun (max enough enough') (by omega), ← hrun' (max enough enough') (by omega)]

/-- Runs that end alike with every bound end alike without a bound. -/
theorem ends_congr {program' : Capture.Instrumented} {allowance : Option Nat}
    (h : ∀ bound, (program.runWithin bound allowance).outcome =
      (program'.runWithin bound allowance).outcome) {outcome : Outcome}
    (hends : ∃ run, program.Ends allowance run ∧ run.outcome = outcome) :
    ∃ run, program'.Ends allowance run ∧ run.outcome = outcome := by
  obtain ⟨_, ⟨hend, bound, rfl⟩, rfl⟩ := hends
  exact ⟨program'.runWithin bound allowance, ⟨h bound ▸ hend, bound, rfl⟩, (h bound).symm⟩

end Capture.Instrumented

end StepTrace
