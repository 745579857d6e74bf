import StepTrace.Trace.Stream

/-!
# Reports

A report is what a reader of a whole run gets: the steps and how the run ended. With a
limit, a run that offers more steps is stopped there; one that ends by itself with exactly
as many steps is not.

* `Capture.Instrumented.report`: collects the steps of a stream and reports.
-/

namespace StepTrace

/-- How a reported run ended; a run that completed without a single step is told apart. -/
inductive Status where
  | completed
  | emptyTrace
  | failed (message : String)
  | stepLimit (limit : Nat)
deriving DecidableEq, Repr

/-- The status of a run with so many steps. -/
def Status.ofEnd (steps : Nat) : RunEnd → Status
  | .completed => if steps = 0 then .emptyTrace else .completed
  | .failed message => .failed message
  | .stepLimit limit => .stepLimit limit

/-- The status in words. -/
def Status.display : Status → String
  | .completed => "completed"
  | .emptyTrace => "no steps captured"
  | .failed message => message
  | .stepLimit limit => "stopped after " ++ toString limit ++ " steps"

/-- The document of a status. -/
def Status.json : Status → Json
  | .completed => .object [("kind", .string "completed")]
  | .emptyTrace => .object [("kind", .string "emptyTrace")]
  | .failed message =>
    .object [("kind", .string "simulationError"), ("message", .string message)]
  | .stepLimit limit =>
    .object [("kind", .string "stepLimitReached"), ("limit", .count limit)]

/-- The steps of a run and how it ended. -/
structure Report where
  trace : Trace
  status : Status

namespace Report

/-- The report of a program that could not be run. -/
def failed (message : String) : Report :=
  ⟨#[], .failed message⟩

/-- The document of a report. -/
def json (report : Report) : Json :=
  .object [("trace", report.trace.json), ("status", report.status.json)]

end Report

namespace Capture.Instrumented

/-- The report of the program for at most so many steps if there is a limit, with a bound
on nested calls and on the rounds of a loop. -/
def reportWithin (program : Capture.Instrumented) (bound : Nat) (limit : Option Nat) : Report :=
  let (trace, stream) := (StepStream.startWithin bound program limit).collect
  ⟨trace, .ofEnd trace.size (stream.outcome?.getD .completed)⟩

/-- The report of the program for at most so many steps if there is a limit, with the bound
that no run reaches in practice. -/
def report (program : Capture.Instrumented) (limit : Option Nat) : Report :=
  program.reportWithin bound limit

end Capture.Instrumented

end StepTrace
