/-!
# Doubles as exact binary fractions

A finite double is `± mantissa · 2 ^ exponent` with a mantissa below `2 ^ 53`. Taking it
apart makes rounding to an integer, remainders and conversions exact integer arithmetic.

* `Dyadic.ofFloat?` takes a finite double apart, `Dyadic.toFloat` puts one together.
* `truncate`, `floor`, `ceiling` keep the sign of a zero result.
* `remainder` has the sign of the dividend.
-/

namespace StepTrace.Number

/-- The number `± mantissa · 2 ^ exponent`. -/
structure Dyadic where
  negative : Bool
  mantissa : Nat
  exponent : Int
deriving DecidableEq, Repr

/-- The parts of a finite double; `none` for the infinities and for not-a-number. -/
def Dyadic.ofFloat? (x : Float) : Option Dyadic :=
  let bits : Nat := x.toBits.toNat
  let field : Nat := (bits >>> 52) % 2048
  let fraction : Nat := bits % (1 <<< 52)
  if field = 2047 then none
  else if field = 0 then some ⟨bits >>> 63 = 1, fraction, -1074⟩
  else some ⟨bits >>> 63 = 1, fraction + 1 <<< 52, (field : Int) - 1075⟩

theorem Dyadic.mantissa_lt {x : Float} {d : Dyadic} (h : Dyadic.ofFloat? x = some d) :
    d.mantissa < 1 <<< 53 := by
  have hf : x.toBits.toNat % (1 <<< 52) < 1 <<< 52 := Nat.mod_lt _ (by decide)
  simp only [ofFloat?] at h
  split at h
  · simp at h
  · split at h <;> (injection h with h; subst h; simp only; omega)

/-- The double with these parts. The mantissa must be below `2 ^ 53` and the exponent at
least `-1074`, so that the value is a double or, past the greatest one, an infinity. -/
def Dyadic.toFloat (d : Dyadic) : Float :=
  let sign := if d.negative then 1 <<< 63 else 0
  if d.mantissa = 0 then Float.ofBits (UInt64.ofNat sign)
  else
    let width := d.mantissa.log2 + 1
    let field := d.exponent + width + 1022
    if field ≥ 2047 then Float.ofBits (UInt64.ofNat (sign + 2047 <<< 52))
    else if field ≥ 1 then
      let fraction := d.mantissa <<< (53 - width) - 1 <<< 52
      Float.ofBits (UInt64.ofNat (sign + field.toNat <<< 52 + fraction))
    else
      Float.ofBits (UInt64.ofNat (sign + d.mantissa <<< (d.exponent + 1074).toNat))

/-- The whole part of the magnitude. -/
def Dyadic.whole (d : Dyadic) : Nat :=
  if d.exponent ≥ 0 then d.mantissa <<< d.exponent.toNat
  else d.mantissa >>> (-d.exponent).toNat

/-- Whether the number is an integer. -/
def Dyadic.isWhole (d : Dyadic) : Bool :=
  d.exponent ≥ 0 || d.mantissa % (1 <<< (-d.exponent).toNat) == 0

/-- The integer towards zero. -/
def Dyadic.toInt (d : Dyadic) : Int :=
  if d.negative then -(d.whole : Int) else d.whole

/-- The not-a-number value. -/
def nan : Float := 0.0 / 0.0

/-- Positive infinity. -/
def infinity : Float := 1.0 / 0.0

/-- The double nearest to a natural number. -/
def ofNat (n : Nat) : Float :=
  if n.log2 ≥ 1024 then infinity else Float.ofScientific n false 0

/-- The double nearest to an integer. -/
def ofInt (n : Int) : Float :=
  if n < 0 then -ofNat n.natAbs else ofNat n.natAbs

/-- Rounds to an integer: `adjust` says from the sign and from whether a fraction is
dropped by how much the whole part of the magnitude grows. -/
def roundWith (adjust : Bool → Bool → Nat) (x : Float) : Float :=
  match Dyadic.ofFloat? x with
  | none => x
  | some d =>
    if d.exponent ≥ 0 then x
    else
      let y := ofNat (d.whole + adjust d.negative (! d.isWhole))
      if d.negative then -y else y

/-- Rounds towards zero. -/
def truncate : Float → Float :=
  roundWith fun _ _ => 0

/-- Rounds towards negative infinity. -/
def floor : Float → Float :=
  roundWith fun negative fractional => if negative && fractional then 1 else 0

/-- Rounds towards positive infinity. -/
def ceiling : Float → Float :=
  roundWith fun negative fractional => if ! negative && fractional then 1 else 0

/-- Whether a double is a finite integer. -/
def isInteger (x : Float) : Bool :=
  (Dyadic.ofFloat? x).any Dyadic.isWhole

/-- The integer part towards zero of a finite double. -/
def toInt? (x : Float) : Option Int :=
  (Dyadic.ofFloat? x).map Dyadic.toInt

/-- The integer part of a double as a count: what is below zero and not-a-number count
as nothing, and what exceeds the greatest 64-bit count is that count. -/
def toCount (x : Float) : Nat :=
  match Dyadic.ofFloat? x with
  | some d => if d.negative then 0 else min d.whole (1 <<< 64 - 1)
  | none => if x > 0 then 1 <<< 64 - 1 else 0

/-- The remainder of a division that rounds its quotient towards zero. -/
def remainder (x y : Float) : Float :=
  match Dyadic.ofFloat? x, Dyadic.ofFloat? y with
  | none, _ => nan
  | some _, none => if y.isNaN then nan else x
  | some a, some b =>
    if b.mantissa = 0 then nan
    else if a.mantissa = 0 then x
    else
      let low := min a.exponent b.exponent
      let scaledA := a.mantissa <<< (a.exponent - low).toNat
      let scaledB := b.mantissa <<< (b.exponent - low).toNat
      Dyadic.toFloat ⟨a.negative, scaledA % scaledB, low⟩

/-- The low 32 bits of the integer part, read as a signed number. -/
def toInt32 (x : Float) : Int :=
  ((toInt? x).getD 0).bmod (1 <<< 32)

/-- The sixteen hexadecimal digits of a double's bits; `NaN` for not-a-number. -/
def bitsText (x : Float) : String :=
  if x.isNaN then "NaN"
  else
    let digits := Nat.toDigits 16 x.toBits.toNat
    String.ofList (List.replicate (16 - digits.length) '0' ++ digits)

end StepTrace.Number
