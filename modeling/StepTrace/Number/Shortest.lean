import StepTrace.Number.Binary

/-!
# The shortest decimal digits of a double

Every real between the midpoints to the neighbouring doubles reads back as the same
double, the midpoints themselves if the mantissa is even. On the decimal grids with 1, 2,
… 17 digits the value has two neighbours each; the first grid with a neighbour inside that
interval gives the digits, the nearer neighbour wins, and of two equally near ones the
record of the format decides.

* `shortest` gives digits `d` and a position `p` that stand for `0.d · 10 ^ p`.
-/

namespace StepTrace.Number

/-- The decimal number `0.d₁d₂… · 10 ^ point` with the digits `d₁d₂…`, most significant
first. Neither the first nor the last digit is zero. -/
structure Digits where
  digits : List Char
  point : Int
deriving DecidableEq, Repr

/-- The decimal digits of a natural number. -/
def decimal (n : Nat) : List Char :=
  Nat.toDigits 10 n

/-- The digits of `n · 10 ^ shift` without the zeros at the end. -/
def Digits.ofScaled (n : Nat) (shift : Int) : Digits :=
  let digits := decimal n
  ⟨(digits.reverse.dropWhile (· == '0')).reverse, digits.length + shift⟩

/-- A positive rational `num / den`. -/
structure Ratio where
  num : Nat
  den : Nat

/-- The ratio times `10 ^ k`. -/
def Ratio.scale (r : Ratio) (k : Int) : Ratio :=
  if k ≥ 0 then ⟨r.num * Nat.pow 10 k.toNat, r.den⟩
  else ⟨r.num, r.den * Nat.pow 10 (-k).toNat⟩

/-- `mantissa · 2 ^ exponent`. -/
def Ratio.ofBinary (mantissa : Nat) (exponent : Int) : Ratio :=
  if exponent ≥ 0 then ⟨mantissa <<< exponent.toNat, 1⟩
  else ⟨mantissa, 1 <<< (-exponent).toNat⟩

/-- The least `p` with `r < 10 ^ p`, found from an estimate by at most `steps` moves. -/
def Ratio.pointFrom (r : Ratio) : Nat → Int → Int
  | 0, p => p
  | steps + 1, p =>
    let below (q : Int) : Bool := let s := r.scale (-q); s.num < s.den
    if ! below p then r.pointFrom steps (p + 1)
    else if below (p - 1) then r.pointFrom steps (p - 1)
    else p

/-- The least `p` with `r < 10 ^ p`. -/
def Ratio.point (r : Ratio) : Int :=
  let estimate := ((r.num.log2 : Int) - r.den.log2) * 30103 / 100000
  r.pointFrom 8 estimate

/-- The reals that read back as a double, four times scaled: between `low` and `high` in
units of `2 ^ (exponent - 2)`, the value being `mid`. -/
structure Interval where
  low : Nat
  mid : Nat
  high : Nat
  closed : Bool
  exponent : Int

/-- The interval of a positive double. -/
def Interval.ofDyadic (d : Dyadic) : Interval where
  low := if d.mantissa = 1 <<< 52 && d.exponent > -1074 then 4 * d.mantissa - 1
    else 4 * d.mantissa - 2
  mid := 4 * d.mantissa
  high := 4 * d.mantissa + 2
  closed := d.mantissa % 2 = 0
  exponent := d.exponent - 2

/-- How a tie between the two neighbours of a value on a decimal grid is decided. -/
inductive Tie where
  | up
  | toEven
deriving DecidableEq

/-- The neighbour on the grid of spacing `10 ^ (p - count)` that lies in the interval,
the nearer one if both do. -/
def Interval.onGrid? (i : Interval) (tie : Tie) (p : Int) (count : Nat) : Option Nat :=
  let scaled (n : Nat) : Ratio := (Ratio.ofBinary n i.exponent).scale (count - p)
  let value := scaled i.mid
  let below := value.num / value.den
  let above := below + 1
  let low := scaled i.low
  let high := scaled i.high
  let lowFits := if i.closed then low.num ≤ below * low.den else low.num < below * low.den
  let highFits := if i.closed then above * high.den ≤ high.num else above * high.den < high.num
  if lowFits && highFits then
    let gapBelow := value.num - below * value.den
    let gapAbove := above * value.den - value.num
    if gapBelow < gapAbove then some below
    else if gapAbove < gapBelow then some above
    else match tie with
      | .up => some above
      | .toEven => some (if below % 2 = 0 then below else above)
  else if lowFits then some below
  else if highFits then some above
  else none

/-- The digits found on the first grid that has a neighbour in the interval. -/
def Interval.search (i : Interval) (tie : Tie) (p : Int) : Nat → Nat → Digits
  | 0, count => Digits.ofScaled ((i.onGrid? tie p count).getD 0) (p - count)
  | left + 1, count =>
    match i.onGrid? tie p count with
    | some n => Digits.ofScaled n (p - count)
    | none => i.search tie p left (count + 1)

/-- The shortest digits of a positive finite double. -/
def shortest (tie : Tie) (d : Dyadic) : Digits :=
  let i := Interval.ofDyadic d
  i.search tie (Ratio.ofBinary i.mid i.exponent).point 16 1

end StepTrace.Number
