import StepTrace.Json

/-!
# Steps

A step records that the statement on a line has run and what the names visible there stood
for. The entries of a step are in the order of their names, each name occurring once.
-/

namespace StepTrace

/-- One step of a run. -/
structure Step where
  line : Nat
  entries : List (String × Json)
deriving BEq, Inhabited

/-- The document of a step. -/
def Step.json (step : Step) : Json :=
  .object [("lineNumber", .count step.line), ("scope", .object step.entries)]

/-- The entry of a name. -/
def Step.entry? (step : Step) (name : String) : Option Json :=
  step.entries.lookup name

/-- Steps in the order in which they were made. -/
abbrev Trace := Array Step

/-- The document of a trace. -/
def Trace.json (trace : Trace) : Json :=
  .array (trace.toList.map Step.json)

end StepTrace
