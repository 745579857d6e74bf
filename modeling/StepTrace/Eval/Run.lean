import StepTrace.Eval.Program

/-!
# Runs

A run is a program's process brought to its end by a consumer that takes every step, or one
that takes so many and refuses the next.

* `Capture.Instrumented.process`: the process of a program with captures.
* `Process.run`: a process brought to its end.
-/

namespace StepTrace

/-- How a run ended. -/
inductive Outcome where
  | completed
  | stopped (stop : Stop)

/-- A run: the steps that were taken, how it ended and the state in which it ended. -/
structure Run where
  trace : Trace
  outcome : Outcome
  final : State

/-- The process brought to its end by a consumer that takes so many more steps, or all;
`trace` holds what it has taken already. -/
def Process.run (allowance : Option Nat) (trace : Trace) : Process Unit → Run
  | done _ s => ⟨trace, .completed, s⟩
  | stopped stop s => ⟨trace, .stopped stop, s⟩
  | offering step answer =>
    match allowance with
    | none => (answer true).run none (trace.push step)
    | some (n + 1) => (answer true).run (some n) (trace.push step)
    | some 0 => (answer false).run (some 0) trace

/-- The state before a program begins. -/
def State.initial : State :=
  ⟨Native.environment, Native.heap, #[], .of []⟩

/-- The bound on nested calls and on the rounds of a loop: no run gets there in practice. -/
def bound : Nat := 1 <<< 50

namespace Capture.Instrumented

/-- The process of the program, with a bound on nested calls and on the rounds of a loop. -/
def process (program : Capture.Instrumented) (bound : Nat) : Process Unit :=
  execProgram program.candidates bound program.program .initial

/-- The run of the program for a consumer that takes so many steps, or all. -/
def runWithin (program : Capture.Instrumented) (bound : Nat) (allowance : Option Nat) : Run :=
  (program.process bound).run allowance #[]

/-- The run of the program for a consumer that takes so many steps, or all, with the bound
that no run reaches in practice. -/
def run (program : Capture.Instrumented) (allowance : Option Nat) : Run :=
  program.runWithin bound allowance

end Capture.Instrumented

end StepTrace
