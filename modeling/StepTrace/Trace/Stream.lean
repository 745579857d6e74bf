import StepTrace.Eval.Run

/-!
# Step streams

A stream hands out the steps of a run one by one. The run is the work of a worker, and the
two take turns: the worker stands still until the stream gives it a turn, and then goes on
to the next step that it offers or to its end. A step beyond the limit is thrown away and
ends the stream. The stream knows how the run ended once it has been asked for a step that
is not there; one that was given up hands out nothing and knows no end.

* `StepStream.next`: one turn.
* `StepStream.collect`, `StepStream.drain`: turns until the end.
-/

namespace StepTrace

/-- How the consumer of the steps sees the end of a run. -/
inductive RunEnd where
  | completed
  | failed (message : String)
  | stepLimit (limit : Nat)
deriving DecidableEq, Repr

/-- What is said about a run that is given up without any end in sight. -/
def exhaustedMessage : String :=
  "simulation aborted: no end in sight"

/-- What is said about a worker that is gone without having been sent away. -/
def lostMessage : String :=
  "simulation worker stopped unexpectedly"

/-- The end of a run that was stopped, no step of which was refused. -/
def RunEnd.ofStop : Stop → RunEnd
  | .fault fault => .failed fault.report
  | .refused _ => .failed lostMessage
  | .exhausted => .failed exhaustedMessage

/-- A worker between two turns: it has not begun, or it stands at a step that it has handed
over. -/
inductive Worker where
  | fresh
  | parked (answer : Bool → Process Unit)

/-- What the worker does in its next turn. -/
def Worker.turn (program : Capture.Instrumented) (bound : Nat) : Worker → Process Unit
  | fresh => program.process bound
  | parked answer => answer true

/-- A stream of the steps of a program, with at most `limit` of them if there is a limit.
A stream without a worker hands out nothing more. -/
structure StepStream where
  program : Capture.Instrumented
  bound : Nat
  limit : Option Nat
  worker : Option Worker
  delivered : Nat
  outcome? : Option RunEnd

namespace StepStream

/-- The stream before its first step, with a bound on nested calls and on the rounds of a
loop. -/
def startWithin (bound : Nat) (program : Capture.Instrumented) (limit : Option Nat) :
    StepStream :=
  ⟨program, bound, limit, some .fresh, 0, none⟩

/-- The stream before its first step, with the bound that no run reaches in practice. -/
def start (program : Capture.Instrumented) (limit : Option Nat) : StepStream :=
  startWithin StepTrace.bound program limit

/-- The stream begun again. -/
def restart (stream : StepStream) : StepStream :=
  startWithin stream.bound stream.program stream.limit

/-- The stream given up; the worker is sent away. -/
def drop (stream : StepStream) : StepStream :=
  { stream with worker := none, outcome? := none }

/-- The stream at its end; the worker is sent away. -/
def finish (stream : StepStream) (reason : RunEnd) : StepStream :=
  { stream with worker := none, outcome? := some reason }

/-- Whether as many steps as the limit admits have been handed out. -/
def isFull (stream : StepStream) : Bool :=
  stream.limit.any (· ≤ stream.delivered)

/-- The stream after a step was handed out; the worker stands at that step. -/
def handedOut (stream : StepStream) (answer : Bool → Process Unit) : StepStream :=
  { stream with worker := some (.parked answer), delivered := stream.delivered + 1 }

/-- The step that the worker's turn leads to, if there is one, and the stream behind it. -/
def receive (stream : StepStream) : Process Unit → Option Step × StepStream
  | .done _ _ => (none, stream.finish .completed)
  | .stopped stop _ => (none, stream.finish (.ofStop stop))
  | .offering step answer =>
    if stream.isFull then (none, stream.finish (.stepLimit stream.delivered))
    else (some step, stream.handedOut answer)

/-- The next step, if there is one, and the stream behind it. -/
def next (stream : StepStream) : Option Step × StepStream :=
  match stream.worker with
  | none => (none, stream)
  | some worker => stream.receive (worker.turn stream.program stream.bound)

/-- All steps from the worker's turn on, behind those in `trace`, and the stream at its
end. -/
def receiveAll (stream : StepStream) (trace : Trace) : Process Unit → Trace × StepStream
  | .done _ _ => (trace, stream.finish .completed)
  | .stopped stop _ => (trace, stream.finish (.ofStop stop))
  | .offering step answer =>
    if stream.isFull then (trace, stream.finish (.stepLimit stream.delivered))
    else (stream.handedOut answer).receiveAll (trace.push step) (answer true)

/-- The steps that are left, and the stream at its end. -/
def collect (stream : StepStream) : Trace × StepStream :=
  match stream.worker with
  | none => (#[], stream)
  | some worker => stream.receiveAll #[] (worker.turn stream.program stream.bound)

/-- The number of steps that are left, and the stream at its end. -/
def drain (stream : StepStream) : Nat × StepStream :=
  let (trace, stream) := stream.collect
  (trace.size, stream)

end StepStream

end StepTrace
