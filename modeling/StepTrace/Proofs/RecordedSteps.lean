import StepTrace.Proofs.Handover

/-!
# Recorded steps

Every step that a run has on record was made for a capture of the program, by looking at the
environment and the heap of that moment, and an environment binds only names of the program
and of what the run provides. This is an invariant of the states of a run (`State.Sound`): the
code of the program is also in the closures, so their captures and names are part of it.

* `Process.EndsIn`: what is known of the states in which a process can come to its end.
* `sound_runWithin`: the invariant holds at the end of every run, whoever consumes its steps.
-/

namespace StepTrace

open Syntax (Location Stmt functionNames boundNames)
open Capture

/-! ## Sound states -/

/-- If a step was taken at the moment, it was made there, for a capture on a line with the one
property, and only names with the other one were bound. -/
def Moment.Sound (Marked : Nat → Prop) (Named : String → Prop) (names : List String)
    (moment : Moment) : Prop :=
  ∀ step, moment.event = .taken step → Marked step.line ∧
    step = Step.observe names step.line moment.env moment.heap ∧
    ∀ x, moment.env.Binds x → Named x

/-- The names that are bound, the code of the closures and the steps on record come from a
program with captures on the lines in `Marked` and with names in `Named`. -/
structure State.Sound (Marked : Nat → Prop) (Named : String → Prop) (names : List String)
    (s : State) : Prop where
  env : ∀ x, s.env.Binds x → Named x
  closures : ∀ (place : Nat) closure, s.closures[place]? = some closure →
    Confined Marked Named (functionCaptures closure.function) (functionNames closure.function)
  past : ∀ moment ∈ s.past.get, moment.Sound Marked Named names

namespace State.Sound

variable {Marked : Nat → Prop} {Named : String → Prop} {names : List String} {s : State}

theorem record (h : s.Sound Marked Named names) {event : Event}
    (hevent : Moment.Sound Marked Named names ⟨event, s.env, s.heap⟩) :
    (s.record event).Sound Marked Named names where
  env := h.env
  closures := h.closures
  past := by
    intro moment hmoment
    rw [State.record, Ghost.get_map, List.mem_append, List.mem_singleton] at hmoment
    rcases hmoment with hbefore | rfl
    · exact h.past moment hbefore
    · exact hevent

/-- An event that is no step. -/
theorem record_other (h : s.Sound Marked Named names) {event : Event}
    (hevent : event.step? = none) : (s.record event).Sound Marked Named names := by
  refine h.record fun step hstep => ?_
  cases hstep
  cases hevent

theorem record_taken (h : s.Sound Marked Named names) {line : Nat} (hline : Marked line) :
    (s.record (.taken (Step.observe names line s.env s.heap))).Sound Marked Named names := by
  refine h.record fun step hstep => ?_
  cases hstep
  exact ⟨hline, rfl, h.env⟩

theorem changeEnv (h : s.Sound Marked Named names) {change : Environment → Environment}
    (hchange : Environment.BindsOnly Named change) :
    (s.changeEnv change).Sound Marked Named names := by
  have hchanged : State.Sound Marked Named names { s with env := change s.env } :=
    { h with env := fun x hx => (hchange s.env x hx).elim (h.env x) id }
  exact hchanged.record_other rfl

theorem changeHeap (h : s.Sound Marked Named names) (change : Heap → Heap) :
    (s.changeHeap change).Sound Marked Named names := by
  have hchanged : State.Sound Marked Named names { s with heap := change s.heap } :=
    { h with }
  exact hchanged.record_other rfl

theorem addClosure (h : s.Sound Marked Named names) {f : Syntax.Function}
    (hf : Confined Marked Named (functionCaptures f) (functionNames f)) :
    (s.addClosure f).Sound Marked Named names := by
  have hadded : State.Sound Marked Named names { s with
      heap := s.heap.addFunction f.name
      closures := s.closures.push ⟨f, s.env.current⟩ } :=
    { h with
      closures := by
        intro place closure hclosure
        rw [Array.getElem?_push] at hclosure
        split at hclosure
        · cases hclosure
          exact hf
        · exact h.closures place closure hclosure }
  exact hadded.record_other rfl

end State.Sound

/-! ## Processes -/

/-- Every state in which the process can come to its end has the property, whatever steps are
taken. -/
def Process.EndsIn (good : State → Prop) {α : Type} : Process α → Prop
  | .done _ s => good s
  | .stopped _ s => good s
  | .offering _ answer => ∀ taken, (answer taken).EndsIn good

namespace Process.EndsIn

variable {good : State → Prop} {α β : Type}

theorem andThen {p : Process α} {next : α → State → Process β} (h : p.EndsIn good)
    (hnext : ∀ a s, good s → (next a s).EndsIn good) : (p.andThen next).EndsIn good := by
  induction p with
  | done a s => exact hnext a s h
  | stopped stop s => exact h
  | offering step answer ih => exact fun taken => ih taken (h taken)

theorem leaving {p : Process α} {leave : Environment → Environment}
    (hleave : ∀ s, good s → good (s.changeEnv leave)) (h : p.EndsIn good) :
    (p.leaving leave).EndsIn good := by
  induction p with
  | done a s => exact hleave s h
  | stopped stop s => exact hleave s h
  | offering step answer ih => exact fun taken => ih taken (h taken)

theorem run {p : Process Unit} (h : p.EndsIn good) (allowance : Option Nat) (trace : Trace) :
    good (p.run allowance trace).final := by
  induction p generalizing allowance trace with
  | done a s => exact h
  | stopped stop s => exact h
  | offering step answer ih =>
      match allowance with
      | none => exact ih true (h true) _ _
      | some 0 => exact ih false (h false) _ _
      | some (n + 1) => exact ih true (h true) _ _

end Process.EndsIn

theorem State.Sound.assign {Marked : Nat → Prop} {Named : String → Prop} {names : List String}
    {s : State} (h : s.Sound Marked Named names) (loc : Location) (x : String) (value : Value) :
    (Eval.assign loc x value s).EndsIn (State.Sound Marked Named names) := by
  rw [Eval.assign_apply]
  cases hassignee : s.env.assignee x with
  | error refusal =>
      cases refusal with
      | undeclared => exact h
      | constant => exact h
  | ok scope =>
      have hx : s.env.Binds x := Environment.binds_of_assignee hassignee
      have hstored : State.Sound Marked Named names
          { s with env := s.env.store scope x value } :=
        { h with env := fun y hy => h.env y (hx.of_store hy) }
      exact hstored.record_other rfl

/-- Keeping states sound, of the right side alone. -/
def Correspondence.sound (Marked : Nat → Prop) (Named : String → Prop) (names : List String) :
    Correspondence #[] where
  Rel _ m := ∀ s : State, s.Sound Marked Named names →
    (m s).EndsIn (State.Sound Marked Named names)
  Marked := Marked
  Named := Named
  Spelled _ := True
  Sited _ := True
  Looks looked := looked = names
  pure _ _ h := h
  bind hm hf s h := by
    rw [Eval.bind_apply]
    exact (hm s h).andThen fun a s h => hf a s h
  leaving hleave hm s h := (hm s h).leaving fun _ h => h.changeEnv hleave
  fault _ _ _ h := h
  misspelled _ _ _ _ h := h
  tooDeep _ _ h := h
  exhausted _ h := h
  asking _ hf s h := by
    rw [Eval.bind_apply]
    exact hf s.env s.heap s h
  changeEnv hchange _ h := h.changeEnv hchange
  calling _ h := h.record_other rfl
  leaveWith _ _ h := h.record_other rfl
  assign _ x value _ h := h.assign _ x value
  changeHeap change _ _ h := h.changeHeap change
  unchecked _ _ h := h.record_other rfl
  untested _ _ h := h.record_other rfl
  newClosure hp hf s h := by
    obtain rfl := hp.elim id id
    rw [placeFunction_empty]
    exact h.addClosure hf.toConfined
  withClosure place k k' hnone hsome s h := by
    rw [Eval.bind_apply]
    change (k' s.closures[place]? s).EndsIn _
    cases hclosure : s.closures[place]? with
    | none => exact hnone s h
    | some closure =>
        have hplaced := hsome #[] closure (Or.inl rfl)
          ((h.closures place closure hclosure).within _ _)
        rw [Closure.place, placeFunction_empty] at hplaced
        exact hplaced s h
  capture hlooks hline s h := by
    subst hlooks
    rw [Eval.capture_apply]
    intro taken
    cases taken with
    | true => exact h.record_taken hline
    | false => exact h
  complete _ _ s h := by
    unfold Eval.complete
    split
    · exact h.record_other rfl
    · exact h
  completeCaptured _ _ _ _ _ _ _ hexec := by simp [isExecutable] at hexec

/-! ## Runs -/

theorem binds_environment {x : String} (h : Native.environment.Binds x) :
    x ∈ Native.globals.map Prod.fst := by
  have hglobals : Environment.BindsOnly (· ∈ Native.globals.map Prod.fst) fun env =>
      Native.globals.foldl (fun env (entry : String × Value × Bool) =>
        env.declare entry.1 entry.2.1 entry.2.2) env := by
    refine .foldl _ fun entry hentry => ?_
    exact .declare _ _ (List.mem_map_of_mem hentry)
  refine (hglobals .initial x h).elim (fun hinitial => ?_) id
  obtain ⟨i, hi⟩ := hinitial
  cases i with
  | zero => simp [Environment.initial, Scopes.root, Scopes.binding?, Scope.blank] at hi
  | succ i => simp [Environment.initial, Scopes.root, Scopes.binding?] at hi

theorem State.Sound.initial (Marked : Nat → Prop) {Named : String → Prop}
    (hglobals : ∀ x ∈ Native.globals.map Prod.fst, Named x) (names : List String) :
    State.initial.Sound Marked Named names where
  env x hx := hglobals x (binds_environment hx)
  closures place closure h := by simp [State.initial] at h
  past := by simp [State.initial]

namespace Capture.Instrumented

/-- The state at the end of a run is sound, whatever bound stops it and whoever consumes its
steps. -/
theorem sound_runWithin (program : Capture.Instrumented) {Named : String → Prop}
    (hglobals : ∀ x ∈ Native.globals.map Prod.fst, Named x)
    (hnames : ∀ x ∈ boundNames program.program, Named x) (bound : Nat)
    (allowance : Option Nat) :
    (program.runWithin bound allowance).final.Sound (· ∈ captures program.program) Named
      program.candidates := by
  let C := (Correspondence.sound (· ∈ captures program.program) Named program.candidates).programs
  have hsettings := C.settings program.candidates rfl bound
  have hprogram := C.program hsettings program.program
    (Confined.within ⟨fun _ h => h, hnames⟩ _ _)
  have hends := hprogram .initial (.initial _ hglobals _)
  rw [placeStmts_empty] at hends
  exact hends.run allowance #[]

end Capture.Instrumented

end StepTrace
