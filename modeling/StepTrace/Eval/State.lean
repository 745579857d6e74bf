import StepTrace.Eval.Fault
import StepTrace.Eval.History
import StepTrace.Syntax.Tree
import StepTrace.Trace.Snapshot
import StepTrace.Value.Property

/-!
# Computations

A computation changes the state of a run. It comes to its end with a value or stops before,
and on the way it offers steps to a consumer. While a step is offered the computation
stands still; the answer of the consumer decides whether it goes on behind the step or is
abandoned there. What is left of a computation that stands still is again a process, so a
consumer can take its turns whenever it likes.

A computation is also given a bound on its rounds and calls, so that it ends in any case; a
run that reaches that bound is `exhausted` and has no result.

* `Process`: a computation under way, as its consumer sees it.
* `Eval`: computations on the state.
* `block`: a computation inside a new scope, which is left again however it ends.
* `hand`: offers a step.
-/

namespace StepTrace

open Syntax (Location)

/-- A function together with the scope around its definition. -/
structure Closure where
  function : Syntax.Function
  scope : Nat

/-- Why a run stops before its end. -/
inductive Stop where
  | fault (fault : Fault)
  /-- The consumer takes no further step; this one was offered. -/
  | refused (step : Step)
  | exhausted

/-- The state of a run. -/
structure State where
  env : Environment
  heap : Heap
  closures : Array Closure
  past : History

/-- The step for a line: an entry for every candidate that is bound, is no function and
has a snapshot. -/
def Step.observe (candidates : List String) (line : Nat) (env : Environment) (heap : Heap) :
    Step :=
  let entries := candidates.filterMap fun name =>
    (env.lookup? name).bind fun value =>
      (value.snapshot? heap).map fun json => (name, json)
  ⟨line, entries⟩

/-- A computation under way. `answer` says how it goes on when the step that it offers is
taken or is not. -/
inductive Process (α : Type) where
  | done (value : α) (state : State)
  | stopped (stop : Stop) (state : State)
  | offering (step : Step) (answer : Bool → Process α)

/-- A computation on the state. -/
def Eval (α : Type) : Type :=
  State → Process α

namespace State

/-- Puts an event on record. -/
@[inline] def record (s : State) (event : Event) : State :=
  { s with past := s.past.map (· ++ [⟨event, s.env, s.heap⟩]) }

/-- The state with another environment. -/
@[inline] def changeEnv (s : State) (change : Environment → Environment) : State :=
  { s with env := change s.env }.record .changed

/-- The state with another heap. -/
@[inline] def changeHeap (s : State) (change : Heap → Heap) : State :=
  { s with heap := change s.heap }.record .changed

/-- The state with a further closure over the innermost scope. -/
@[inline] def addClosure (s : State) (function : Syntax.Function) : State :=
  { s with
    heap := s.heap.addFunction function.name
    closures := s.closures.push ⟨function, s.env.current⟩ }.record .changed

end State

namespace Process

variable {α β : Type}

/-- The process with another computation behind it. -/
def andThen (next : α → State → Process β) : Process α → Process β
  | done value s => next value s
  | stopped stop s => stopped stop s
  | offering step answer => offering step fun taken => (answer taken).andThen next

/-- The same as `andThen`, with its cases in place. -/
@[always_inline, inline]
def attach (next : α → State → Process β) (p : Process α) : Process β :=
  match p with
  | done value s => next value s
  | stopped stop s => stopped stop s
  | offering step answer => offering step fun taken => (answer taken).andThen next

/-- The process with a change of the environment behind it, also if it stops. -/
def leaving (leave : Environment → Environment) : Process α → Process α
  | done value s => done value (s.changeEnv leave)
  | stopped stop s => stopped stop (s.changeEnv leave)
  | offering step answer => offering step fun taken => (answer taken).leaving leave

end Process

@[always_inline]
instance : Monad Eval where
  pure value := fun s => .done value s
  bind m next := fun s => (m s).attach next

namespace Eval

variable {α : Type}

/-- Stops. -/
def stop (reason : Stop) : Eval α := fun s =>
  .stopped reason s

/-- Stops with a fault. -/
def raise (loc : Location) (cause : Cause) : Eval α :=
  stop (.fault ⟨cause, loc⟩)

/-- What was admitted, or the fault. -/
def allow (loc : Location) : Except Cause α → Eval α
  | .ok a => pure a
  | .error cause => raise loc cause

/-- What a question to the environment and the heap is answered. -/
@[inline] def ask (question : Environment → Heap → α) : Eval α := fun s =>
  .done (question s.env s.heap) s

/-- What a question to the heap is answered. -/
@[inline] def consult (question : Heap → α) : Eval α :=
  ask fun _ heap => question heap

/-- What a question to the heap is answered, or the fault. -/
def consultAt (loc : Location) (question : Heap → Except Cause α) : Eval α := do
  allow loc (← consult question)

/-- Changes the environment. -/
@[inline] def changeEnv (change : Environment → Environment) : Eval Unit := fun s =>
  .done () (s.changeEnv change)

/-- Changes the heap. -/
@[inline] def changeHeap (change : Heap → Heap) : Eval Unit := fun s =>
  .done () (s.changeHeap change)

/-- Carries out a change of a container that was decided by looking at the heap. -/
def write (loc : Location) (decide : Heap → Except Cause Write) : Eval Unit := do
  let change ← consultAt loc decide
  changeHeap (·.perform change)

/-- A new array. -/
def newArray (items : Array Value) : Eval Value := do
  let place ← consult (·.arrays.size)
  changeHeap (·.addArray items)
  pure (.array place)

/-- Puts on record that nothing has limited the length of an array. -/
def unchecked (array : Nat) : Eval Unit := fun s =>
  .done () (s.record (.unchecked array))

/-- A new array with as many elements as there happen to be. -/
def newUnchecked (items : Array Value) : Eval Value := do
  let place ← consult (·.arrays.size)
  changeHeap (·.addArray items)
  unchecked place
  pure (.array place)

/-- The value, and puts on record that nothing has limited its length as a string. -/
def untested (value : Value) : Eval Value := fun s =>
  .done value (s.record (.untested value))

/-- A new object. -/
def newObject (fields : Fields) : Eval Value := do
  let place ← consult (·.objects.size)
  changeHeap (·.addObject fields)
  pure (.object place)

/-- A new closure over the innermost scope. -/
def newClosure (function : Syntax.Function) : Eval Value := fun s =>
  .done (.function s.closures.size) (s.addClosure function)

/-- The closure with the number. -/
def closureAt (place : Nat) : Eval (Option Closure) := fun s =>
  .done s.closures[place]? s

/-- The value of a name, if it is bound. -/
def lookup? (name : String) : Eval (Option Value) :=
  ask fun env _ => env.lookup? name

/-- The value of a name. -/
def lookup (loc : Location) (name : String) : Eval Value := do
  match ← lookup? name with
  | some value => pure value
  | none => raise loc (.unbound name)

/-- Gives a name a new value where it is bound. -/
def assign (loc : Location) (name : String) (value : Value) : Eval Unit := do
  match ← ask fun env _ => env.assignee name with
  | .ok scope => changeEnv (·.store scope name value)
  | .error .constant => raise loc (.constant name)
  | .error .undeclared => raise loc (.unbound name)

/-- Runs a computation and goes back in the environment afterwards, also if it stops. -/
@[inline] def leaving (leave : Environment → Environment) (body : Eval α) : Eval α := fun s =>
  (body s).leaving leave

/-- Runs a computation inside a new scope. -/
@[inline] def block (body : Eval α) : Eval α := do
  changeEnv Environment.enterBlock
  leaving Environment.leaveBlock body

/-- Runs a computation in a frame of its own, its scope inside scope number `parent`. -/
@[inline] def frame (name : String) (parent : Nat) (body : Eval α) : Eval α := do
  changeEnv (·.enterCall name parent)
  leaving Environment.leaveCall body

/-- Puts on record that a simple statement has come to its end; `rest` are the statements
behind it. -/
def complete (stmt : Syntax.Stmt) (rest : List Syntax.Stmt) : Eval Unit := fun s =>
  match stmt.simpleLine? with
  | some line => .done () (s.record (.completed line (Syntax.startsWithCapture rest)))
  | none => .done () s

/-- Puts on record that a function is called: the number of the frames that there are. -/
def calling : Eval Nat := fun s =>
  .done s.env.depth (s.record .called)

/-- Offers a step; the computation is abandoned if it is refused. -/
def hand (step : Step) : Eval Unit := fun s =>
  .offering step fun taken =>
    if taken then .done () (s.record (.taken step)) else .stopped (.refused step) s

/-- Hands over the step for a line. -/
def capture (candidates : List String) (line : Nat) : Eval Unit := do
  hand (← ask (Step.observe candidates line))

end Eval

end StepTrace
