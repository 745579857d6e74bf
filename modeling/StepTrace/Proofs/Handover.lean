import StepTrace.Proofs.CorrespondingPrograms

/-!
# Handing over steps

Whatever a program does, its process hands steps over in order: a refused step ends it at
once, with that step, and nothing else ever refuses one. This is a congruence: it holds
because every construct respects it, and none looks at how the computations inside it have
stopped.

* `Orderly`: the property of a process.
* `Orderly.run_refusing`: a consumer that takes fewer steps than are offered sees a prefix.
* `History.steps`: the steps on record, which are those that were taken (`Orderly.trace`).
-/

namespace StepTrace

/-- The step that was taken. -/
def Event.step? : Event → Option Step
  | .taken step => some step
  | _ => none

/-- The steps on record. -/
noncomputable def History.steps (past : History) : List Step :=
  past.get.filterMap (·.event.step?)

namespace State

variable (s : State)

theorem steps_record (event : Event) :
    (s.record event).past.steps = s.past.steps ++ event.step?.toList := by
  cases event with
  | changed => simp [record, History.steps, Event.step?]
  | completed line captured => simp [record, History.steps, Event.step?]
  | taken step => simp [record, History.steps, Event.step?]
  | called => simp [record, History.steps, Event.step?]
  | returned value => simp [record, History.steps, Event.step?]
  | unchecked array => simp [record, History.steps, Event.step?]
  | untested value => simp [record, History.steps, Event.step?]

theorem steps_changeEnv (change : Environment → Environment) :
    (s.changeEnv change).past.steps = s.past.steps :=
  (steps_record _ _).trans (List.append_nil _)

theorem steps_changeHeap (change : Heap → Heap) :
    (s.changeHeap change).past.steps = s.past.steps :=
  (steps_record _ _).trans (List.append_nil _)

theorem steps_addClosure (f : Syntax.Function) :
    (s.addClosure f).past.steps = s.past.steps :=
  (steps_record _ _).trans (List.append_nil _)

end State

/-- Behind the steps in `before` the process hands its steps over in order: it has them on
record, it is stopped by no refusal but that of the step that it offers, and that refusal
stops it at once. -/
def Orderly {α : Type} (before : List Step) : Process α → Prop
  | .done _ s => s.past.steps = before
  | .stopped stop s => s.past.steps = before ∧ ∀ step, stop ≠ .refused step
  | .offering step answer =>
    (∃ s, answer false = .stopped (.refused step) s ∧ s.past.steps = before) ∧
      Orderly (before ++ [step]) (answer true)

namespace Orderly

variable {α β : Type} {before : List Step}

theorem andThen {p : Process α} {next : α → State → Process β} (h : Orderly before p)
    (hnext : ∀ a s, Orderly s.past.steps (next a s)) : Orderly before (p.andThen next) := by
  induction p generalizing before with
  | done a s => exact h ▸ hnext a s
  | stopped stop s => exact h
  | offering step answer ih =>
      obtain ⟨⟨s, hfalse, hs⟩, htrue⟩ := h
      exact ⟨⟨s, congrArg (Process.andThen next) hfalse, hs⟩, ih true htrue⟩

theorem leaving {p : Process α} (leave : Environment → Environment) (h : Orderly before p) :
    Orderly before (p.leaving leave) := by
  induction p generalizing before with
  | done a s => exact (State.steps_changeEnv s leave).trans h
  | stopped stop s => exact ⟨(State.steps_changeEnv s leave).trans h.1, h.2⟩
  | offering step answer ih =>
      obtain ⟨⟨s, hfalse, hs⟩, htrue⟩ := h
      refine ⟨⟨s.changeEnv leave, congrArg (Process.leaving leave) hfalse, ?_⟩, ih true htrue⟩
      exact (State.steps_changeEnv s leave).trans hs

theorem capture (names : List String) (line : Nat) (s : State) :
    Orderly s.past.steps (Eval.capture names line s) := by
  rw [Eval.capture_apply]
  exact ⟨⟨s, rfl, rfl⟩, State.steps_record s _⟩

end Orderly

/-- Handing steps over in order, of the right side alone. -/
def Congruence.orderly : Congruence where
  Rel _ m := ∀ s : State, Orderly s.past.steps (m s)
  pure _ _ := rfl
  bind hm hf s := by
    rw [Eval.bind_apply]
    exact (hm s).andThen fun a s => hf a s
  leaving leave _ _ hm s := (hm s).leaving leave
  fault _ _ := ⟨rfl, fun _ => Stop.noConfusion⟩
  exhausted _ := ⟨rfl, fun _ => Stop.noConfusion⟩
  asking hf s := by
    rw [Eval.bind_apply]
    exact hf s.env s.heap s
  changeEnv change s := State.steps_changeEnv s change
  calling s := (State.steps_record s _).trans (List.append_nil _)
  leaveWith value s := (State.steps_record s _).trans (List.append_nil _)
  changeHeap change _ s := State.steps_changeHeap s change
  unchecked array s := (State.steps_record s _).trans (List.append_nil _)
  untested value s := (State.steps_record s _).trans (List.append_nil _)
  newClosure f s := State.steps_addClosure s f
  closureAt _ _ := rfl
  capture names line s := Orderly.capture names line s
  complete stmt rest s := by
    unfold Eval.complete
    split
    · exact (State.steps_record s _).trans (List.append_nil _)
    · rfl

theorem Capture.Instrumented.orderly_process (program : Capture.Instrumented) (bound : Nat) :
    Orderly [] (program.process bound) := by
  have hsettings :=
    Congruence.orderly.correspondence.programs.settings program.candidates trivial bound
  have h := Congruence.orderly.program hsettings program.program .initial
  rwa [State.initial, History.steps, Ghost.get_of, List.filterMap_nil] at h

/-! ## Runs -/

namespace Process

/-- The steps that the process offers to a consumer that takes every one. -/
def steps : Process Unit → List Step
  | done _ _ => []
  | stopped _ _ => []
  | offering step answer => step :: (answer true).steps

theorem trace_run (p : Process Unit) (trace : Trace) :
    (p.run none trace).trace = trace ++ p.steps.toArray := by
  induction p generalizing trace with
  | done a s => simp [run, steps]
  | stopped stop s => simp [run, steps]
  | offering step answer ih => simp [run, steps, ih]

/-- A consumer that takes as many steps as are offered might as well take every step. -/
theorem run_accepting (p : Process Unit) (taken : Trace) {k : Nat} (hk : p.steps.length ≤ k) :
    p.run (some k) taken = p.run none taken := by
  induction p generalizing taken k with
  | done a s => rfl
  | stopped stop s => rfl
  | offering step answer ih =>
      cases k with
      | zero => exact absurd hk (Nat.not_succ_le_zero _)
      | succ k => exact ih true (taken.push step) (Nat.le_of_succ_le_succ hk)

end Process

namespace Orderly

variable {p : Process Unit} {before : List Step}

/-- The steps that were taken are those on record in the state at the end. -/
theorem trace (h : Orderly before p) {taken : Trace} (htaken : taken.toList = before)
    (allowance : Option Nat) :
    (p.run allowance taken).trace.toList = (p.run allowance taken).final.past.steps := by
  induction p generalizing before taken allowance with
  | done a s =>
      subst htaken
      exact Eq.symm h
  | stopped stop s =>
      subst htaken
      exact h.1.symm
  | offering step answer ih =>
      subst htaken
      match allowance with
      | none => exact ih true h.2 Array.toList_push none
      | some (n + 1) => exact ih true h.2 Array.toList_push (some n)
      | some 0 =>
          obtain ⟨⟨s, hfalse, hs⟩, -⟩ := h
          rw [Process.run, hfalse]
          exact hs.symm

/-- A consumer that takes fewer steps than are offered gets the first of them, and the run
stops at the one that follows. -/
theorem run_refusing (h : Orderly before p) (taken : Trace) {k : Nat} (hk : k < p.steps.length) :
    (p.run (some k) taken).trace = taken ++ (p.steps.take k).toArray ∧
      (p.run (some k) taken).outcome = .stopped (.refused p.steps[k]) := by
  induction p generalizing before taken k with
  | done a s => exact absurd hk (Nat.not_lt_zero k)
  | stopped stop s => exact absurd hk (Nat.not_lt_zero k)
  | offering step answer ih =>
      cases k with
      | zero =>
          obtain ⟨⟨s, hfalse, _⟩, _⟩ := h
          simp [Process.run, hfalse, Process.steps]
      | succ k =>
          obtain ⟨htrace, hstop⟩ := ih true h.2 (taken.push step) (Nat.lt_of_succ_lt_succ hk)
          refine ⟨?_, hstop⟩
          simp [Process.run, htrace, Process.steps]

/-- No run is stopped by a refusal if every step is taken. -/
theorem not_refused (h : Orderly before p) (taken : Trace) (step : Step) :
    (p.run none taken).outcome ≠ .stopped (.refused step) := by
  induction p generalizing before taken with
  | done a s => exact Outcome.noConfusion
  | stopped stop s => exact fun heq => h.2 step (Outcome.stopped.inj heq)
  | offering offered answer ih => exact ih true h.2 _

end Orderly

namespace Capture.Instrumented

variable (program : Capture.Instrumented) (bound : Nat)

theorem trace_runWithin :
    (program.runWithin bound none).trace = (program.process bound).steps.toArray := by
  rw [runWithin, Process.trace_run, Array.empty_append]

/-- The steps of a run are those on record at its end. -/
theorem trace_eq_steps (allowance : Option Nat) :
    (program.runWithin bound allowance).trace.toList =
      (program.runWithin bound allowance).final.past.steps :=
  (program.orderly_process bound).trace rfl allowance

end Capture.Instrumented

end StepTrace
