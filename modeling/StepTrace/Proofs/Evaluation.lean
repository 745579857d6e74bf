import StepTrace.Proofs.ArrayOperations
import StepTrace.Proofs.CorrespondingPrograms
import StepTrace.Proofs.Frames
import StepTrace.Proofs.ScopeChains

/-!
# Evaluation of calls, reductions and declarations

A call of a function that is there runs its body in a frame and a scope of its own and has the
value with which the body ends (`Callable.call`). An array is reduced by one call after the other,
each of which is given the value of the one before; if every call keeps what the next one needs,
the reduction comes to its end (`Builtin.exists_reduceFrom`). A program that declares a single
name comes to its end if the expression has a value (`Capture.Instrumented.run_declared`).
-/

namespace StepTrace

open Syntax

variable {f : Function} {place scope : Nat} {s : State}

/-! ## Calls -/

/-- The function is there, and there is room on the stack for a call of it. -/
structure Callable (f : Function) (place scope : Nat) (s : State) : Prop where
  closure : s.closures[place]? = some ⟨f, scope⟩
  room : s.env.depth < Limit.callDepth

/-- The state in which the body of a function begins that is called with the arguments. -/
def State.entering (s : State) (f : Function) (scope : Nat) (args : List Value) : State :=
  ((s.record .called).changeEnv (·.enterCall (f.name.getD "<anonymous>") scope)).changeEnv
    fun env => (f.params.zipIdx).foldl (fun env (name, k) =>
      env.declare name (args[k]?.getD .undefined) false) env

/-- A single parameter has the value of the first argument. -/
theorem State.lookup?_entering {name : String} (h : f.params = [name]) (scope : Nat)
    (value : Value) (rest : List Value) (s : State) :
    (s.entering f scope (value :: rest)).env.lookup? name = some value := by
  have hthere : s.env.scopes.size < (s.env.scopes.push (.blank (some scope) true)).size := by
    rw [Array.size_push]
    exact Nat.lt_succ_self _
  have hdeclared := Scopes.lookup?_declare hthere name value false name
  unfold State.entering
  rw [h]
  exact hdeclared.trans (if_pos rfl)

/-- A call of a function that is there has the value with which its body ends. -/
theorem Callable.call (h : Callable f place scope s) {names : List String} {bound : Nat}
    {args : List Value} {value : Value} {left : State}
    (hbody : execStmts ⟨callWithin names bound, bound, names⟩ f.body (s.entering f scope args) =
      .done (.return value) left) (callee : String) (loc : Location) :
    callWithin names (bound + 1) (.function place) args callee loc s =
      .done value (left.changeEnv Environment.leaveCall) := by
  have hthere : Eval.closureAt place s = .done (some ⟨f, scope⟩) s :=
    congrArg (Process.done · s) h.closure
  have hcall : callWithin names (bound + 1) (.function place) args callee loc s =
      callClosure ⟨callWithin names bound, bound, names⟩ ⟨f, scope⟩ args loc s := by
    unfold callWithin
    dsimp only
    rw [Eval.bind_of_done hthere]
  rw [hcall, callClosure_eq, Eval.bind_apply]
  change (if s.env.depth ≥ Limit.callDepth then Eval.raise loc .callDepth else _ : Eval Value)
    (s.record .called) = _
  rw [if_neg (Nat.not_le.mpr h.room), Eval.bind_apply]
  change Process.andThen _ (Process.leaving _ (execStmts _ f.body (s.entering f scope args))) = _
  rw [hbody]
  rfl

/-! ## Call after call -/

/-- If a call keeps what `n` further calls need of the value and the state, all calls are made. -/
theorem Builtin.exists_reduceFrom {apply : Value → Value → Nat → Eval Value}
    (Ready : Nat → Value → State → Prop)
    (h : ∀ n value item index s, Ready (n + 1) value s →
      ∃ value' s', apply value item index s = .done value' s' ∧ Ready n value' s')
    (items : List Value) (index : Nat) {value : Value} {s : State}
    (hready : Ready items.length value s) :
    ∃ value' s', reduceFrom apply index value items s = .done value' s' ∧ Ready 0 value' s' := by
  induction items generalizing index value s with
  | nil => exact ⟨value, s, rfl, hready⟩
  | cons item rest ih =>
      obtain ⟨value', s', happly, hready'⟩ := h rest.length value item index s hready
      obtain ⟨result, s'', hrest, hend⟩ := ih (index + 1) hready'
      refine ⟨result, s'', ?_, hend⟩
      rw [reduceFrom, Eval.bind_of_done happly]
      exact hrest

/-- The characters of a text as elements of a new array. -/
theorem evalExpr_characters (on : Setting) (text : String) (l₁ l₂ l₃ : Location) (s : State) :
    evalExpr on (.array [.spread (.string text l₁) l₂] l₃) s =
      .done (.array s.heap.arrays.size)
        ((s.changeHeap (·.addArray (text.toList.map Value.ofChar).toArray)).record
          (.unchecked s.heap.arrays.size)) := by
  have helements : evalElements on [.spread (.string text l₁) l₂] s =
      .done (text.toList.map Value.ofChar) s := by
    rw [evalElements, evalExpr, evalElements]
    change Process.done (text.toList.map Value.ofChar ++ []) s = _
    rw [List.append_nil]
  rw [evalExpr, Eval.bind_of_done helements]
  rfl

/-- The method `reduce` with a function and a value to begin with. -/
theorem evalExpr_reduce {on : Setting} {list : Expr} {args : List Element} {received ready : State}
    {array : Nat} {f start : Value} {l₁ l₂ : Location}
    (hlist : evalExpr on list s = .done (.array array) received)
    (hargs : evalElements on args received = .done [f, start] ready) :
    evalExpr on (.call (.member list "reduce" l₁) args l₂) s =
      Builtin.reduceFrom (fun value item index =>
        on.call f [value, item, .ofCount index, .array array] "reduce callback" l₂) 0 start
        (ready.heap.items array).toList ready := by
  have hmethod : Builtin.arrayMethod on.call array "reduce" [f, start] l₂ =
      Builtin.reduce on.call array [f, start] l₂ := by
    unfold Builtin.arrayMethod
    rfl
  rw [evalExpr, Eval.bind_of_done hlist, Eval.bind_of_done hargs]
  change Builtin.arrayMethod on.call array "reduce" [f, start] l₂ ready = _
  rw [hmethod]
  rfl

/-! ## Declarations -/

/-- The state in which the first statement of a program begins. -/
def State.started : State :=
  State.initial.changeEnv (·.enterCall "<script>" 0)

theorem State.depth_started : State.started.env.depth < Limit.callDepth := by
  change State.initial.env.depth + 1 < _
  rw [depth_initial]
  decide

/-- A program that declares one name comes to its end if the expression has a value. -/
theorem Capture.Instrumented.run_declared {e : Expr} {value : Value} {made : State}
    (h : evalExpr ⟨callWithin [] bound, bound, []⟩ e .started = .done value made)
    (source name : String) (l : Location) :
    Capture.Instrumented.run ⟨source, [.declare .letDecl [.mk (.name name) (some e)] l], []⟩ none =
      ⟨#[], .completed, ((made.changeEnv (·.declare name value false)).record
        (.completed l.line false)).changeEnv Environment.leaveCall⟩ := by
  let program : Program := [.declare .letDecl [.mk (.name name) (some e)] l]
  let on : Setting := ⟨callWithin [] bound, bound, []⟩
  let left := (made.changeEnv (·.declare name value false)).record (.completed l.line false)
  have hstmts : execStmts on program .started = .done .normal left := by
    simp only [execStmts, program, hoist, pure_bind, execEach, execStmt, execDeclarators]
    simp only [Eval.bind_apply, on, h]
    rfl
  have hprogram : execProgram [] bound program .initial =
      .done () (left.changeEnv Environment.leaveCall) := by
    change Process.leaving _ ((execStmts on program >>= fun _ => pure ()) .started) = _
    rw [Eval.bind_of_done hstmts]
    rfl
  unfold Capture.Instrumented.run Capture.Instrumented.runWithin Capture.Instrumented.process
  rw [hprogram]
  rfl

/-- Whatever the bound on calls is, what has happened on the way to the value is part of the
run. -/
theorem Capture.Instrumented.run_declare {P : Moment → Prop} {e : Expr}
    (h : ∀ n, ∃ value made, evalExpr ⟨callWithin [] (n + 1), n + 1, []⟩ e .started =
        .done value made ∧ ∃ moment ∈ made.past.get, P moment)
    (source name : String) (l : Location) :
    let run := Capture.Instrumented.run
      ⟨source, [.declare .letDecl [.mk (.name name) (some e)] l], []⟩ none
    run.outcome = .completed ∧ ∃ moment ∈ run.final.past.get, P moment := by
  obtain ⟨value, made, hvalue, moment, hmoment, hP⟩ := h (bound - 1)
  have hbound : bound - 1 + 1 = bound := rfl
  rw [hbound] at hvalue
  rw [run_declared hvalue]
  refine ⟨rfl, moment, ?_, hP⟩
  simp only [State.changeEnv, State.record, Ghost.get_map, List.mem_append]
  exact Or.inl (Or.inl (Or.inl hmoment))

end StepTrace
