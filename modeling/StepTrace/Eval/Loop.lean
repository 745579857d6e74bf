import StepTrace.Eval.State

/-!
# Loops

How a statement ends, and what a loop makes of the ways its body ends. A loop is given a
bound on its rounds; one that reaches it is exhausted.

* `Completion.ofBody`: whether the loop goes on after its body.
* `rounds`: the loop that tests before every round.
-/

namespace StepTrace

/-- How a statement ended, unless it stopped the run. -/
inductive Completion where
  | normal
  | break
  | continue
  | return (value : Value)

namespace Completion

/-- The value of a call whose body ended this way. -/
def result : Completion → Value
  | .return value => value
  | _ => .undefined

/-- How a loop ends after its body ended this way; `none` if it goes on. -/
def endsLoop? : Completion → Option Completion
  | .normal | .continue => none
  | .break => some .normal
  | .return value => some (.return value)

end Completion

namespace Eval

/-- Ends a statement with the value of the call, and puts that on record. -/
def leaveWith (value : Value) : Eval Completion := fun s =>
  .done (.return value) (s.record (.returned value))

/-- Tests, and runs the body and what prepares the next round as long as the test
succeeds. -/
def rounds (test : Eval Bool) (body : Eval Completion) (next : Eval Unit) :
    Nat → Eval Completion
  | 0 => stop .exhausted
  | bound + 1 => do
    if ← test then
      match (← body).endsLoop? with
      | some completion => pure completion
      | none => do
        next
        rounds test body next bound
    else pure .normal

/-- Runs the body for every item, up to one after which the loop does not go on. -/
def forEach (body : Value → Eval Completion) : List Value → Eval Completion
  | [] => pure .normal
  | item :: rest => do
    match (← body item).endsLoop? with
    | some completion => pure completion
    | none => forEach body rest

end Eval

end StepTrace
