import StepTrace.Number.Text
import StepTrace.Text.Blank

/-!
# Reading numbers

A decimal numeral is an optional sign, digits with an optional point among or beside them,
and an optional exponent; it denotes the double nearest to it. The whole text has to be a
numeral: `readDecimal?` refuses anything else.

* `splitDigits_append`: taking the digits at the front loses nothing.
-/

namespace StepTrace.Number

/-- The value of a digit in bases up to 36. -/
def digitValue? (c : Char) : Option Nat :=
  if c.isDigit then some (c.toNat - 48)
  else if 'a' ≤ c && c ≤ 'z' then some (c.toNat - 87)
  else if 'A' ≤ c && c ≤ 'Z' then some (c.toNat - 55)
  else none

/-- The value of the digit if it is one of the base. -/
def digitIn? (base : Nat) (c : Char) : Option Nat :=
  (digitValue? c).filter (· < base)

/-- The number written by digits of the base; other characters count as zero. -/
def digitsValue (base : Nat) (digits : List Char) : Nat :=
  digits.foldl (fun n c => n * base + (digitValue? c).getD 0) 0

/-- The decimal digits at the front and what follows them. -/
def splitDigits (text : List Char) : List Char × List Char :=
  (text.takeWhile Char.isDigit, text.dropWhile Char.isDigit)

theorem splitDigits_append (text : List Char) :
    (splitDigits text).1 ++ (splitDigits text).2 = text :=
  List.takeWhile_append_dropWhile

theorem all_isDigit_splitDigits (text : List Char) : (splitDigits text).1.all Char.isDigit :=
  List.all_takeWhile

/-- Whether the text is not empty and has only decimal digits. -/
def allDigits (text : List Char) : Bool :=
  ! text.isEmpty && text.all Char.isDigit

/-- A sign at the front, read as whether the number is negative, and the rest. -/
def splitSign : List Char → Bool × List Char
  | '-' :: rest => (true, rest)
  | '+' :: rest => (false, rest)
  | text => (false, text)

/-- The double nearest to `digits · 10 ^ shift`. Numerals that are far beyond the range of
the doubles are answered without building a power of ten. -/
def ofDecimal (digits : List Char) (shift : Int) : Float :=
  let significant := digits.dropWhile (· == '0')
  let size := (significant.length : Int) + shift
  if significant.isEmpty || size < -400 then 0.0
  else if size > 400 then infinity
  else
    let n := digitsValue 10 significant
    if shift ≥ 0 then Float.ofScientific n false shift.toNat
    else Float.ofScientific n true (-shift).toNat

/-- The exponent part of a numeral: nothing, or `e` or `E`, a sign and digits. -/
def readExponent? : List Char → Option Int
  | [] => some 0
  | c :: rest =>
    if c = 'e' || c = 'E' then
      let (negative, digits) := splitSign rest
      if allDigits digits then
        let n : Int := digitsValue 10 digits
        some (if negative then -n else n)
      else none
    else none

/-- The double denoted by a decimal numeral. -/
def readDecimal? (text : List Char) : Option Float :=
  let (negative, body) := splitSign text
  let (whole, rest) := splitDigits body
  let (fraction, rest) := match rest with
    | '.' :: more => splitDigits more
    | _ => ([], rest)
  if whole.isEmpty && fraction.isEmpty then none
  else (readExponent? rest).map fun e =>
    let x := ofDecimal (whole ++ fraction) (e - fraction.length)
    if negative then -x else x

/-- A count written in digits of the base, with an optional plus sign, that fits in 64
bits. -/
def readCount? (base : Nat) (text : List Char) : Option Nat :=
  let digits := match text with
    | '+' :: rest => rest
    | _ => text
  if ! digits.isEmpty && digits.all fun c => (digitIn? base c).isSome then
    let n := digitsValue base digits
    if n < 1 <<< 64 then some n else none
  else none

/-- An integer with an optional sign; underscores may stand after the first digit. -/
def readInt? (text : List Char) : Option Int :=
  let (negative, body) := splitSign text
  match body with
  | [] => none
  | c :: rest =>
    if c.isDigit && rest.all fun d => d.isDigit || d == '_' then
      let n : Int := digitsValue 10 (body.filter (· ≠ '_'))
      some (if negative then -n else n)
    else none

/-- The number a text converts to: surrounding blanks do not count, the empty text is
zero, `0x` starts a hexadecimal count, and anything that is no numeral is not-a-number. -/
def ofText (text : List Char) : Float :=
  match Text.trim text with
  | [] => 0.0
  | '0' :: 'x' :: hex | '0' :: 'X' :: hex => (readCount? 16 hex).elim nan ofNat
  | body =>
    if body = "Infinity".toList || body = "+Infinity".toList then infinity
    else if body = "-Infinity".toList then -infinity
    else (readDecimal? body).getD nan

end StepTrace.Number
