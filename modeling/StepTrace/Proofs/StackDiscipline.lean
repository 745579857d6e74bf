import StepTrace.Proofs.Disciplines

/-!
# The discipline of the stack

Whatever a statement or an expression does, and however it ends, the frames are afterwards what
they were before. A return statement belongs to the call in whose frame it is carried out, and
the stack is found full exactly if a function is called while there are as many frames as there
may be.

* `Keeps.closure`: the value of a call is what its own frame has returned.
* `Discipline.keeping`: the frames are kept by all pieces that the work of a frame is made of, so
  that they are kept by expressions, statements and calls.
* `stack_discipline`: both for all expressions, statements and calls, and for whole runs.
-/

namespace StepTrace

open Syntax

variable {α β : Type} {s s' : State} {moments : List Moment} {returned : List Value}

theorem Abandoned.of_cause {cause : Cause} {loc : Location} (s : State) (h : cause ≠ .callDepth) :
    Abandoned s (.fault ⟨cause, loc⟩) s := by
  refine .refl s ?_
  rintro ⟨loc', ⟨⟩⟩
  exact h rfl

/-! ## Closures -/

/-- The event of the call itself, where there is room for a frame. -/
theorem Passage.called (s : State) : Passage s (s.record .called) [⟨.called, s.env, s.heap⟩] :=
  .record .called rfl (.refl s.env)

theorem not_overflows_called {env : Environment} {heap : Heap} (h : env.depth < Limit.callDepth) :
    ¬ Overflows [⟨.called, env, heap⟩] := by
  simp [Overflows, h]

/-- A function was called, and its own frame has returned the values. -/
def Called (s : State) (returned : List Value) (s' : State) : Prop :=
  ∃ moments, Passage s s' (⟨.called, s.env, s.heap⟩ :: moments) ∧
    returnsAt s.env.depth moments = [] ∧ returnsAt (s.env.depth + 1) moments = returned ∧
    ¬ Overflows moments

theorem Framed.called (h : Framed (s.record .called) returned s') : Called s returned s' := by
  obtain ⟨moments, hpassage, hrest⟩ := h
  exact ⟨moments, (Passage.called s).trans hpassage, hrest⟩

theorem Called.finished (h : Called s returned s') (hroom : s.env.depth < Limit.callDepth) :
    Finished s [] s' := by
  obtain ⟨moments, hpassage, hbelow, -, hclear⟩ := h
  refine ⟨_, hpassage, ?_, ?_⟩
  · rw [← hbelow]
    simp [returnsAt, Event.returned?]
  · rw [← List.singleton_append, overflows_append]
    exact not_or.mpr ⟨not_overflows_called hroom, hclear⟩

theorem Completion.returned_cases (c : Completion) :
    c.returned = [c.result] ∨ c.returned = [] ∧ c.result = .undefined := by
  cases c with
  | «return» value => exact Or.inl rfl
  | _ => exact Or.inr ⟨rfl, rfl⟩

/-- Without room for a frame nothing of the function is run. -/
theorem callClosure_full (on : Setting) (closure : Closure) (args : List Value) (loc : Location)
    {s : State} (h : Limit.callDepth ≤ s.env.depth) :
    callClosure on closure args loc s =
      .stopped (.fault ⟨.callDepth, loc⟩) (s.record .called) := by
  unfold callClosure
  rw [Eval.bind_apply]
  change (if s.env.depth ≥ Limit.callDepth then Eval.raise loc .callDepth else _ : Eval Value)
    (s.record .called) = _
  rw [if_pos h]
  rfl

namespace Keeps

/-- The value of a call is what its own frame has returned. -/
theorem closure_of_body {on : Setting} (closure : Closure) (args : List Value) (loc : Location)
    (hbody : Keeps Completion.returned (callBody on closure args))
    (hroom : s.env.depth < Limit.callDepth) :
    (callClosure on closure args loc s).Ends
      (fun value s' => s'.env.frames = s.env.frames ∧ ∃ returned, Called s returned s' ∧
        (returned = [value] ∨ returned = [] ∧ value = .undefined))
      fun stop s' => s'.env.frames = s.env.frames ∧ Abandoned s stop s' := by
  have hframe := hbody.frame (closure.function.name.getD "<anonymous>") closure.scope
    (s.record .called) hroom
  have hcalled : Finished s [] (s.record .called) :=
    ⟨_, .called s, by simp [returnsAt, Event.returned?], not_overflows_called hroom⟩
  rw [callClosure_eq, Eval.bind_apply]
  change ((if s.env.depth ≥ Limit.callDepth then Eval.raise loc .callDepth else _ : Eval Value)
    (s.record .called)).Ends _ _
  rw [if_neg (Nat.not_le.mpr hroom)]
  have hstops := hframe.mono (fun c s' h => h) fun stop s' h =>
    (⟨h.1, hcalled.abandoned h.2⟩ : s'.env.frames = s.env.frames ∧ Abandoned s stop s')
  refine hstops.bind fun c s' h => ?_
  exact ⟨h.1, c.returned, h.2.called, c.returned_cases⟩

theorem closureCall {on : Setting} (closure : Closure) (args : List Value) (loc : Location)
    (hbody : Keeps Completion.returned (callBody on closure args)) :
    Keeps silent (callClosure on closure args loc) := by
  rintro frames s rfl
  rcases Nat.lt_or_ge s.env.depth Limit.callDepth with hroom | hfull
  · exact (closure_of_body closure args loc hbody hroom).mono
      (fun value s' ⟨hframes, returned, h, _⟩ => ⟨hframes, h.finished hroom⟩) fun stop s' h => h
  · rw [callClosure_full on closure args loc hfull]
    refine ⟨rfl, _, .called s, iff_of_true ⟨loc, rfl⟩ ?_⟩
    exact ⟨_, List.mem_singleton_self _, rfl, hfull⟩

end Keeps

/-! ## Frames -/

/-- The frames are those of the station. -/
def Station.Keeping : Station → Environment → Prop
  | .outer frames, env => env.frames = frames
  | .inner frames, env => Environment.Inside frames env

theorem Environment.extends_bindAll (env : Environment) (kind : DeclKind)
    (entries : List (String × Value)) : env.Extends (env.bindAll kind entries) := by
  refine .foldl (fun env entry => ?_) entries env
  cases kind with
  | varDecl => exact .declareIn env _ entry.1 entry.2 false
  | letDecl => exact .declareIn env _ entry.1 entry.2 false
  | constDecl => exact .declareIn env _ entry.1 entry.2 true

theorem Station.Keeping.of_extends {station : Station} {env env' : Environment}
    (h : station.Keeping env) (hextends : env.Extends env') : station.Keeping env' := by
  cases station with
  | outer frames => exact hextends.frames.trans h
  | inner frames => exact Environment.Inside.of_extends h hextends

/-- The pieces of the work of a frame keep the frames. -/
def Discipline.keeping : Discipline where
  Runs station own m := StepTrace.Runs station.Keeping own m
  done := Runs.done
  exhausted := Runs.halt (by rintro ⟨loc, ⟨⟩⟩)
  fault hcause := Runs.halt (by
    rintro ⟨loc, ⟨⟩⟩
    exact hcause rfl)
  bind := Runs.bind
  unlessReturned := Runs.unlessReturned
  asking hf s hs := by
    rw [Eval.bind_apply]
    exact hf s.env s.heap s hs
  assign loc name value s hs := by
    rw [Eval.assign_apply]
    rcases s.env.assignee name with (_ | _) | scope
    · exact ⟨hs, .of_cause s nofun⟩
    · exact ⟨hs, .of_cause s nofun⟩
    · have hextends := Environment.Extends.declareIn s.env scope name value false
      exact ⟨hs.of_extends hextends, .changeEnv hextends.advances⟩
  changeHeap change s hs := ⟨hs, .record rfl nofun rfl (.refl _)⟩
  unchecked array s hs := ⟨hs, .record rfl nofun rfl (.refl _)⟩
  untested value s hs := ⟨hs, .record rfl nofun rfl (.refl _)⟩
  newClosure f s hs := ⟨hs, .record rfl nofun rfl (.refl _)⟩
  capture names line s hs := by
    rw [Eval.capture_apply]
    intro taken
    cases taken
    · exact ⟨hs, .refl s (by rintro ⟨loc, ⟨⟩⟩)⟩
    · exact ⟨hs, .record rfl nofun rfl (.refl _)⟩
  complete stmt rest s hs := by
    unfold Eval.complete
    split
    · exact ⟨hs, .record rfl (by simp) rfl (.refl _)⟩
    · exact ⟨hs, .refl s⟩
  leaveWith value s hs := by
    refine ⟨hs, _, .record _ rfl (.refl _), ?_, not_overflows_singleton nofun⟩
    simp [returnsAt, Event.returned?, Completion.returned]
  bindAll kind entries :=
    Runs.changeEnv (fun env henv => henv.of_extends (env.extends_bindAll kind entries))
      fun env => (env.extends_bindAll kind entries).advances
  nextRound names := Runs.changeEnv (fun _ h => h.nextRound names)
    (Environment.advances_nextRound names)
  inside frames h := Keeps.inside h frames
  block := Runs.block
  call hbody place args loc k hnone hsome s hs := by
    rw [Eval.bind_apply]
    change (k s.closures[place]? s).Ends _ _
    cases s.closures[place]? with
    | none => exact hnone s hs
    | some closure =>
        rw [hsome]
        exact Keeps.closureCall closure args loc (hbody closure args) _ s hs

/-- Expressions leave the frames as they are and return nothing. -/
def Accord.keeping : Accord #[] :=
  Discipline.keeping.accord

namespace Keeps

section

variable {on : Setting} (hcall : Accord.keeping.Callers on.call on.call)
include hcall

theorem expr (e : Expr) : Keeps silent (evalExpr on e) :=
  Discipline.keeping.expr hcall e

/-- A statement keeps the frames and returns what it ends with, if it ends by a return. -/
theorem stmt (stmt : Stmt) : Keeps Completion.returned (execStmt on stmt) :=
  Discipline.keeping.stmt hcall stmt

theorem stmts (body : List Stmt) : Keeps Completion.returned (execStmts on body) :=
  Discipline.keeping.stmts hcall body

theorem closure (closure : Closure) (args : List Value) (loc : Location) {s : State}
    (hroom : s.env.depth < Limit.callDepth) :
    (callClosure on closure args loc s).Ends
      (fun value s' => s'.env.frames = s.env.frames ∧ ∃ returned, Called s returned s' ∧
        (returned = [value] ∨ returned = [] ∧ value = .undefined))
      fun stop s' => s'.env.frames = s.env.frames ∧ Abandoned s stop s' :=
  closure_of_body closure args loc (Discipline.keeping.callBody hcall closure args) hroom

end

theorem callers (names : List String) (bound : Nat) :
    Accord.keeping.Callers (callWithin names bound) (callWithin names bound) :=
  Discipline.keeping.callers names bound

end Keeps

/-! ## Programs -/

theorem Passage.of_initial (h : Passage .initial s' moments) :
    s'.past.get = moments ∧ ∀ moment ∈ moments, moment.env.depth ≤ Limit.callDepth := by
  refine ⟨by simp [h.past, State.initial], fun moment hmoment => ?_⟩
  have hdepth := (h.depth moment hmoment).2
  rw [depth_initial] at hdepth
  omega

/-- A program leaves no frame behind. -/
theorem Capture.Instrumented.frames_process (program : Capture.Instrumented) (bound : Nat) :
    (program.process bound).Ends (fun _ s' => s'.env.frames = [] ∧ Finished .initial [] s')
      fun stop s' => s'.env.frames = [] ∧ Abandoned .initial stop s' := by
  have hroom : State.initial.env.depth < Limit.callDepth := by
    rw [depth_initial]
    decide
  let on : Setting := ⟨callWithin program.candidates bound, bound, program.candidates⟩
  have hstmts : Keeps Completion.returned (execStmts on program.program) :=
    Keeps.stmts (Keeps.callers program.candidates bound) program.program
  have hframe := hstmts.frame "<script>" 0 .initial hroom
  rw [frames_initial] at hframe
  have hprocess : execProgram program.candidates bound program.program =
      Eval.frame "<script>" 0 (execStmts on program.program) >>= fun _ => pure () := by
    unfold execProgram Eval.frame
    rw [Eval.leaving_map, bind_assoc]
  rw [process, hprocess]
  exact hframe.bind fun c s' ⟨hframes, h⟩ => ⟨hframes, h.finished⟩

end StepTrace
