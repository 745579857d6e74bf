import StepTrace.Proofs.Handover
import StepTrace.Proofs.ParsedTree
import StepTrace.Proofs.Unbounded

/-!
# Instrumentation is transparent

A program with captures and the program from which it was made run in lock-step, if every
step is taken. The state of the one mirrors the state of the other at every moment
(`Mirrors`): equal environments and heaps, closures that differ by captures, and equal
histories but for what captures leave there. The process with captures offers steps between
the moments of the other, which offers none (`Synced`).

* `instrumented_run`: both runs make the same changes in the same order and end in the same
  way, and there is one step for every captured statement that has come to its end.
-/

namespace StepTrace

open Syntax Capture

/-! ## Histories -/

/-- The event as it is without captures; a step that was taken is gone. -/
def Event.plain? : Event → Option Event
  | .changed => some .changed
  | .completed line _ => some (.completed line false)
  | .taken _ => none
  | .called => some .called
  | .returned value => some (.returned value)
  | .unchecked array => some (.unchecked array)
  | .untested value => some (.untested value)

/-- The moment as it is without captures. -/
def Moment.plain? (moment : Moment) : Option Moment :=
  moment.event.plain?.map fun event => { moment with event }

/-- The line of a simple statement that has come to its end and has a capture behind it. -/
def Event.capturedLine? : Event → Option Nat
  | .completed line true => some line
  | _ => none

/-- The history without what captures leave there. -/
noncomputable def History.plain (past : History) : List Moment :=
  past.get.filterMap Moment.plain?

/-- The lines of the captured statements in the order in which they came to their ends. -/
noncomputable def History.capturedLines (past : History) : List Nat :=
  past.get.filterMap (·.event.capturedLine?)

namespace State

variable (s : State) (event : Event)

theorem get_record :
    (s.record event).past.get = s.past.get ++ [⟨event, s.env, s.heap⟩] := by
  simp [record]

theorem plain_record :
    (s.record event).past.plain =
      s.past.plain ++ (event.plain?.map fun event => ⟨event, s.env, s.heap⟩).toList := by
  cases event with
  | changed => simp [History.plain, get_record, Moment.plain?, Event.plain?]
  | completed line captured => simp [History.plain, get_record, Moment.plain?, Event.plain?]
  | taken step => simp [History.plain, get_record, Moment.plain?, Event.plain?]
  | called => simp [History.plain, get_record, Moment.plain?, Event.plain?]
  | returned value => simp [History.plain, get_record, Moment.plain?, Event.plain?]
  | unchecked array => simp [History.plain, get_record, Moment.plain?, Event.plain?]
  | untested value => simp [History.plain, get_record, Moment.plain?, Event.plain?]

theorem capturedLines_record :
    (s.record event).past.capturedLines =
      s.past.capturedLines ++ event.capturedLine?.toList := by
  rcases event with _ | ⟨line, _ | _⟩ | step | _ | value | array | value
  all_goals simp [History.capturedLines, get_record, Event.capturedLine?]

end State

/-! ## States -/

/-- The second state belongs to the program with captures and the first one to the program
without. -/
structure Mirrors (map : Array LineKind) (s s' : State) : Prop where
  env : s'.env = s.env
  heap : s'.heap = s.heap
  size : s'.closures.size = s.closures.size
  closure : ∀ (place : Nat) (closure : Closure), s.closures[place]? = some closure →
    functionCaptures closure.function = [] ∧
      ∃ placing, PlacedBy map placing ∧ s'.closures[place]? = some (closure.place placing)
  past : s'.past.plain = s.past.get
  lines : s'.past.steps.map Step.line = s'.past.capturedLines

namespace Mirrors

variable {map : Array LineKind} {s s' : State}

theorem initial (map : Array LineKind) : Mirrors map .initial .initial where
  env := rfl
  heap := rfl
  size := rfl
  closure place closure h := by simp [State.initial] at h
  past := by simp [State.initial, History.plain]
  lines := by simp [State.initial, History.steps, History.capturedLines]

/-- An event that has nothing to do with captures. -/
theorem record (h : Mirrors map s s') {event : Event} (hplain : event.plain? = some event)
    (hstep : event.step? = none) (hline : event.capturedLine? = none) :
    Mirrors map (s.record event) (s'.record event) where
  env := h.env
  heap := h.heap
  size := h.size
  closure := h.closure
  past := by
    rw [State.plain_record, State.get_record, hplain, h.past, h.env, h.heap]
    rfl
  lines := by
    rw [State.steps_record, State.capturedLines_record, hstep, hline]
    simpa using h.lines

/-- A simple statement comes to its end and the step of the capture behind it is taken. -/
theorem recordCaptured (h : Mirrors map s s') (step : Step) :
    Mirrors map (s.record (.completed step.line false))
      ((s'.record (.completed step.line true)).record (.taken step)) where
  env := h.env
  heap := h.heap
  size := h.size
  closure := h.closure
  past := by
    rw [State.plain_record, State.plain_record, State.get_record, h.past, h.env, h.heap]
    exact List.append_nil _
  lines := by
    rw [State.steps_record, State.steps_record, State.capturedLines_record,
      State.capturedLines_record]
    simp [h.lines, Event.step?, Event.capturedLine?]

theorem changeEnv (h : Mirrors map s s') (change : Environment → Environment) :
    Mirrors map (s.changeEnv change) (s'.changeEnv change) := by
  have hchanged : Mirrors map { s with env := change s.env } { s' with env := change s'.env } :=
    { h with env := congrArg change h.env }
  exact hchanged.record rfl rfl rfl

theorem changeHeap (h : Mirrors map s s') (change : Heap → Heap) :
    Mirrors map (s.changeHeap change) (s'.changeHeap change) := by
  have hchanged :
      Mirrors map { s with heap := change s.heap } { s' with heap := change s'.heap } :=
    { h with heap := congrArg change h.heap }
  exact hchanged.record rfl rfl rfl

theorem addClosure (h : Mirrors map s s') {placing : Array LineKind} {f : Syntax.Function}
    (hp : PlacedBy map placing) (hf : functionCaptures f = []) :
    Mirrors map (s.addClosure f) (s'.addClosure (placeFunction placing f)) := by
  have hadded : Mirrors map
      { s with heap := s.heap.addFunction f.name, closures := s.closures.push ⟨f, s.env.current⟩ }
      { s' with
        heap := s'.heap.addFunction (placeFunction placing f).name
        closures := s'.closures.push ⟨placeFunction placing f, s'.env.current⟩ } :=
    { h with
      heap := by rw [h.heap, name_placeFunction]
      size := by simp [h.size]
      closure := by
        intro place closure hclosure
        rw [Array.getElem?_push] at hclosure
        rw [Array.getElem?_push, h.size, h.env]
        by_cases hplace : place = s.closures.size
        · rw [if_pos hplace] at hclosure ⊢
          cases hclosure
          exact ⟨hf, placing, hp, rfl⟩
        · rw [if_neg hplace] at hclosure ⊢
          exact h.closure place closure hclosure }
  exact hadded.record rfl rfl rfl

end Mirrors

/-! ## Processes -/

/-- The second process offers steps between the moments that it has in common with the first
one; if they are taken, the two come to the same end. -/
inductive Synced (map : Array LineKind) {α : Type} : Process α → Process α → Prop
  | done (a : α) {s s' : State} (h : Mirrors map s s') : Synced map (.done a s) (.done a s')
  | stopped (stop : Stop) {s s' : State} (h : Mirrors map s s') :
    Synced map (.stopped stop s) (.stopped stop s')
  | offering (step : Step) {p : Process α} {answer : Bool → Process α}
    (h : Synced map p (answer true)) : Synced map p (.offering step answer)

theorem Mirrors.assign {map : Array LineKind} {s s' : State} (h : Mirrors map s s')
    (loc : Location) (name : String) (value : Value) :
    Synced map (Eval.assign loc name value s) (Eval.assign loc name value s') := by
  rw [Eval.assign_apply, Eval.assign_apply, h.env]
  rcases s.env.assignee name with (_ | _) | scope
  · exact .stopped _ h
  · exact .stopped _ h
  · exact .done () (h.changeEnv _)

namespace Synced

variable {map : Array LineKind} {α β : Type} {p q : Process α}

theorem andThen {next next' : α → State → Process β} (h : Synced map p q)
    (hnext : ∀ a s s', Mirrors map s s' → Synced map (next a s) (next' a s')) :
    Synced map (p.andThen next) (q.andThen next') := by
  induction h with
  | done a h => exact hnext a _ _ h
  | stopped stop h => exact .stopped stop h
  | offering step _ ih => exact .offering step ih

theorem leaving (leave : Environment → Environment) (h : Synced map p q) :
    Synced map (p.leaving leave) (q.leaving leave) := by
  induction h with
  | done a h => exact .done a (h.changeEnv leave)
  | stopped stop h => exact .stopped stop (h.changeEnv leave)
  | offering step _ ih => exact .offering step ih

/-- A process without captures offers no step. -/
theorem steps_eq_nil {p q : Process Unit} (h : Synced map p q) : p.steps = [] := by
  induction h with
  | done a h => rfl
  | stopped stop h => rfl
  | offering step _ ih => exact ih

/-- The runs of the two end in the same way and in states that mirror each other. -/
theorem run {p q : Process Unit} (h : Synced map p q) (trace trace' : Trace) :
    (q.run none trace').outcome = (p.run none trace).outcome ∧
      Mirrors map (p.run none trace).final (q.run none trace').final := by
  induction h generalizing trace' with
  | done a h => exact ⟨rfl, h⟩
  | stopped stop h => exact ⟨rfl, h⟩
  | offering step _ ih => exact ih _

theorem complete {placing : Array LineKind} {suspending : Bool} {stmt : Stmt}
    {rest : List Stmt} {s s' : State} (h : Mirrors map s s') (hrest : captures rest = []) :
    Synced map (Eval.complete stmt rest s)
      (Eval.complete (placeStmt placing suspending stmt) (placeStmts placing suspending rest)
        s') := by
  unfold Eval.complete
  rw [simpleLine?_placeStmt, startsWithCapture_placeStmts, startsWithCapture_of_captures hrest]
  cases stmt.simpleLine? with
  | none => exact .done () h
  | some line => exact .done () (h.record rfl rfl rfl)

theorem completeCaptured (names : List String) {suspending : Bool} {stmt : Stmt}
    {rest rest' : List Stmt} {line : Nat} {s s' : State} (h : Mirrors map s s')
    (hline : stmt.simpleLine? = some line) (hrest : captures rest = []) :
    Synced map (Eval.complete stmt rest s)
      ((Eval.complete (placeStmt map suspending stmt) (.capture line :: rest') >>= fun _ =>
        Eval.capture names line) s') := by
  rw [Eval.bind_apply]
  unfold Eval.complete
  rw [simpleLine?_placeStmt, hline, startsWithCapture_of_captures hrest]
  refine .offering (Step.observe names line s'.env s'.heap) (.done () ?_)
  exact h.recordCaptured (Step.observe names line s'.env s'.heap)

end Synced

/-- Running in lock-step, as a correspondence of a program without captures with the same
program with captures. -/
def Correspondence.synced (map : Array LineKind) : Correspondence map where
  Rel m m' := ∀ s s' : State, Mirrors map s s' → Synced map (m s) (m' s')
  Marked _ := False
  Named _ := True
  Spelled _ := True
  Sited _ := True
  Looks _ := True
  pure a _ _ h := .done a h
  bind hm hf s s' h := by
    rw [Eval.bind_apply, Eval.bind_apply]
    exact (hm s s' h).andThen fun a s s' h => hf a s s' h
  leaving _ hm s s' h := (hm s s' h).leaving _
  fault _ _ _ _ h := .stopped _ h
  misspelled _ _ _ _ _ h := .stopped _ h
  tooDeep _ _ _ h := .stopped _ h
  exhausted _ _ h := .stopped .exhausted h
  asking {_ _ question _ f'} _ hf s s' h := by
    rw [Eval.bind_apply, Eval.bind_apply]
    change Synced map _ (f' (question s'.env s'.heap) s')
    rw [h.env, h.heap]
    exact hf s.env s.heap s s' h
  changeEnv _ _ _ h := .done () (h.changeEnv _)
  assign _ name value s s' h := h.assign _ name value
  changeHeap change _ _ _ h := .done () (h.changeHeap change)
  unchecked _ _ _ h := .done () (h.record rfl rfl rfl)
  untested value _ _ h := .done value (h.record rfl rfl rfl)
  calling s s' h := by
    unfold Eval.calling
    rw [h.env]
    exact .done _ (h.record rfl rfl rfl)
  leaveWith value _ _ h := .done _ (h.record rfl rfl rfl)
  newClosure hp hf s s' h := by
    unfold Eval.newClosure
    rw [h.size]
    exact .done _ (h.addClosure hp (List.eq_nil_iff_forall_not_mem.mpr hf.lines))
  withClosure place k k' hnone hsome s s' h := by
    rw [Eval.bind_apply, Eval.bind_apply]
    change Synced map (k s.closures[place]? s) (k' s'.closures[place]? s')
    cases hclosure : s.closures[place]? with
    | none =>
        have hnone' : s'.closures[place]? = none := by
          rw [Array.getElem?_eq_none_iff] at hclosure ⊢
          exact h.size ▸ hclosure
        rw [hnone']
        exact hnone s s' h
    | some closure =>
        obtain ⟨hplain, placing, hp, hclosure'⟩ := h.closure place closure hclosure
        rw [hclosure']
        have hfits : Within.Of (fun _ => False) (fun _ => True) (fun _ => True) (fun _ => True)
            closure.function :=
          Confined.within ⟨List.eq_nil_iff_forall_not_mem.mp hplain, fun _ _ => trivial⟩ _ _
        exact hsome placing closure hp hfits s s' h
  capture _ hline := hline.elim
  complete hp hrest s s' h := Synced.complete h (List.eq_nil_iff_forall_not_mem.mpr hrest)
  completeCaptured names _ _ _ _ _ hline _ hrest s s' h :=
    Synced.completeCaptured names h hline (List.eq_nil_iff_forall_not_mem.mpr hrest)

/-! ## Programs -/

theorem synced_process {program : Program} (h : captures program = []) (map : Array LineKind)
    (source : String) (names : List String) (bound : Nat) :
    Synced map (Instrumented.process ⟨source, program, names⟩ bound)
      (Instrumented.process ⟨source, placeStmts map true program, names⟩ bound) := by
  let C := (Correspondence.synced map).programs
  have hfits : C.Fits (captures program) (boundNames program) (parts program) (locs program) :=
    Confined.within ⟨List.eq_nil_iff_forall_not_mem.mp h, fun _ _ => trivial⟩ _ _
  have hsettings := C.settings names trivial bound
  exact C.program hsettings program hfits _ _ (Mirrors.initial map)

theorem instrumentWith_of_parse {source : String} {program : Program}
    (h : parse source = .ok program) (names : List String) :
    instrumentWith source names =
      .ok ⟨source, placeStmts (lineMap source).toArray true program, names⟩ := by
  unfold instrumentWith
  rw [h]
  rfl

/-- **Instrumentation is transparent.** The run with captures makes the same changes of
scopes and containers as the run without, in the same order, and ends in the same way; the
lines of its steps are those of the captured statements, in the order in which they come to
their ends. -/
theorem instrumented_run {source : String} {program : Program} (h : parse source = .ok program)
    (names : List String) :
    ∃ instrumented, instrumentWith source names = .ok instrumented ∧
      captures program = [] ∧
      (∀ bound, let plain := Instrumented.runWithin ⟨source, program, names⟩ bound none
        let run := instrumented.runWithin bound none
        run.outcome = plain.outcome ∧
        run.final.past.plain = plain.final.past.get ∧
        run.final.env = plain.final.env ∧
        run.final.heap = plain.final.heap ∧
        plain.trace = #[] ∧
        run.trace.toList.map Step.line = run.final.past.capturedLines) ∧
      ∀ outcome,
        (∃ run, instrumented.Ends none run ∧ run.outcome = outcome) ↔
          ∃ run, Instrumented.Ends ⟨source, program, names⟩ none run ∧ run.outcome = outcome := by
  have hplain := captures_parse h
  have hsynced := synced_process hplain (lineMap source).toArray source names
  have houtcome (bound : Nat) := ((hsynced bound).run #[] #[]).1
  refine ⟨_, instrumentWith_of_parse h names, hplain, fun bound => ?_, fun outcome => ?_⟩
  · have hfinal := ((hsynced bound).run #[] #[]).2
    refine ⟨houtcome bound, hfinal.past, hfinal.env, hfinal.heap, ?_, ?_⟩
    · rw [Instrumented.trace_runWithin, (hsynced bound).steps_eq_nil]
    · rw [Instrumented.trace_eq_steps]
      exact hfinal.lines
  · exact ⟨Instrumented.ends_congr houtcome,
      Instrumented.ends_congr fun bound => (houtcome bound).symm⟩

theorem parse_true : parse "true;\n" = .ok [.expr (.bool true ⟨1, 1⟩) ⟨1, 1⟩] := by
  have htokens : tokenize "true;\n" =
      .ok [⟨.keyword .trueKw, ⟨1, 1⟩⟩, ⟨.symbol .semicolon, ⟨1, 5⟩⟩, ⟨.endOfInput, ⟨2, 1⟩⟩] := by
    rfl
  unfold parse
  rw [htokens]
  rfl

theorem instrumented_run_true :
    ∃ instrumented, instrumentWith "true;\n" ["x"] = .ok instrumented ∧
      ∀ bound, let run := instrumented.runWithin bound none
        run.trace.toList.map Step.line = run.final.past.capturedLines := by
  obtain ⟨instrumented, hinstrumented, _, hruns, _⟩ := instrumented_run parse_true ["x"]
  obtain hlines := fun bound => (hruns bound).2.2.2.2.2
  exact ⟨instrumented, hinstrumented, hlines⟩

end StepTrace
