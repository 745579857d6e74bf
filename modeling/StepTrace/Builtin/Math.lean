import StepTrace.Value.Operator

/-!
# Mathematical functions

The functions of `Math` answer numbers for numbers. An argument that is missing is
not-a-number, and not-a-number among the arguments of `max` and `min` is their answer.

* `MathFunction.apply`: what the function answers.
-/

namespace StepTrace

/-- Rounds to the nearest integer, a half towards positive infinity. -/
def roundHalfUp (x : Float) : Float :=
  let below := Number.floor x
  if x - below ≥ 0.5 then below + 1 else below

/-- The one of the numbers that `better` prefers to all before it, beginning with
`start`. -/
def extreme (better : Float → Float → Bool) (start : Float) (xs : List Float) : Float :=
  xs.foldl (fun best x =>
    if best.isNaN || x.isNaN then Number.nan else if better x best then x else best) start

/-- One with the sign of the number; zeros and not-a-number stay what they are. -/
def signOf (x : Float) : Float :=
  if x > 0 then 1 else if x < 0 then -1 else x

/-- What the function answers for the arguments. -/
def MathFunction.apply (f : MathFunction) (args : List Float) : Float :=
  let x := args.headD Number.nan
  match f with
  | .abs => x.abs
  | .floor => Number.floor x
  | .ceil => Number.ceiling x
  | .round => roundHalfUp x
  | .trunc => Number.truncate x
  | .sign => signOf x
  | .sqrt => x.sqrt
  | .cbrt => x.cbrt
  | .pow => Value.power x (args.tail.headD Number.nan)
  | .max => extreme (fun a b => a > b) (-Number.infinity) args
  | .min => extreme (fun a b => a < b) Number.infinity args
  | .log => x.log
  | .log2 => x.log2
  | .log10 => x.log10

end StepTrace
