import StepTrace.Number.Shortest

/-!
# Number text

The text of a double in each of the places that print one. All of them print the shortest
digits that read back, but they differ in where positional notation ends and in how the
exponent is written.

* `scriptText`: what a running program prints.
* `plainText`: never an exponent.
* `jsonText`: a number of a JSON document that is no small integer.
* `fixedText`: a fixed number of places, rounded half to even on the exact value.
-/

namespace StepTrace.Number

/-- The digits in positional notation, with at least one digit before the point and no
point if the number is an integer. -/
def Digits.positional (d : Digits) : List Char :=
  if d.point ≤ 0 then
    ['0', '.'] ++ List.replicate (-d.point).toNat '0' ++ d.digits
  else
    let p := d.point.toNat
    if d.digits.length ≤ p then d.digits ++ List.replicate (p - d.digits.length) '0'
    else d.digits.take p ++ '.' :: d.digits.drop p

/-- The decimal text of an integer, a negative one with a minus sign. -/
def intText (n : Int) : List Char :=
  if n < 0 then '-' :: decimal n.natAbs else decimal n.natAbs

/-- The digits in scientific notation: one digit before the point, then the exponent with
its sign, a positive sign being written as `plus` says. -/
def Digits.scientific (d : Digits) (plus : List Char) : List Char :=
  let fraction := d.digits.drop 1
  let e := d.point - 1
  d.digits.take 1 ++ (if fraction.isEmpty then [] else '.' :: fraction) ++ 'e' ::
    (if e ≥ 0 then plus else []) ++ intText e

/-- The text of a finite double from its sign and a way to print positive ones; zero has
the text given for it. -/
def signedText (d : Dyadic) (zero : List Char) (positive : Dyadic → List Char) :
    List Char :=
  let text := if d.mantissa = 0 then zero else positive d
  if d.negative then '-' :: text else text

/-- The text of a double in positional notation whatever its size. -/
def plainText (x : Float) : String :=
  match Dyadic.ofFloat? x with
  | none => if x.isNaN then "NaN" else if x > 0 then "inf" else "-inf"
  | some d => String.ofList (signedText d ['0'] fun d => (shortest .up d).positional)

/-- The magnitude rounded to `places` decimal places, a half to the even neighbour. -/
def Dyadic.fixedMagnitude (d : Dyadic) (places : Nat) : List Char :=
  let r := (Ratio.ofBinary d.mantissa d.exponent).scale places
  let below := r.num / r.den
  let rest := 2 * (r.num % r.den)
  let n := if rest > r.den || (rest == r.den && below % 2 == 1) then below + 1 else below
  let digits := decimal n
  let digits := List.replicate (places + 1 - digits.length) '0' ++ digits
  let front := digits.length - places
  digits.take front ++ (if places = 0 then [] else '.' :: digits.drop front)

/-- The text of a finite double with `places` decimal places; a negative zero keeps its
sign. -/
def fixedText (places : Nat) (d : Dyadic) : String :=
  let text := d.fixedMagnitude places
  String.ofList (if d.negative then '-' :: text else text)

/-- The text of a double as a program prints it: positional notation from `1e-6` up to
`1e21`, else scientific with the sign of the exponent; both zeros are `0`. -/
def scriptText (x : Float) : String :=
  match Dyadic.ofFloat? x with
  | none => if x.isNaN then "NaN" else if x > 0 then "Infinity" else "-Infinity"
  | some d =>
    if d.mantissa = 0 then "0"
    else if x.abs ≥ 1e21 || x.abs < 1e-6 then
      String.ofList (signedText d [] fun d => (shortest .up d).scientific ['+'])
    else if d.isWhole then String.ofList (intText d.toInt)
    else String.ofList (signedText d [] fun d => (shortest .up d).positional)

/-- The text of a finite double in a JSON document: positional notation, with `.0` after
an integer, while the exponent of the first digit lies between -5 and 15. -/
def jsonText (d : Dyadic) : List Char :=
  signedText d ['0', '.', '0'] fun d =>
    let s := shortest .toEven d
    let e := s.point - 1
    if -5 ≤ e && e ≤ 15 then
      let text := s.positional
      if text.contains '.' then text else text ++ ['.', '0']
    else s.scientific ['+']

end StepTrace.Number
