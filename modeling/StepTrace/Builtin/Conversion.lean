import StepTrace.Value.Equality
import StepTrace.Value.Limit

/-!
# Conversions that a program asks for

`parseInt` and `parseFloat` read the longest numeral at the front of a text and ignore what
follows it. `radixText` writes an integer in any base, with digits up to `z`.

* `radixDigits`: the digits of a natural number, the first not zero unless it is the only
  one.
* `numeralAtFront?`: the longest decimal numeral at the front.
-/

namespace StepTrace.Builtin

/-- A digit of a base up to 36. -/
def digitChar (d : Nat) : Char :=
  if d < 10 then Char.ofNat (48 + d) else Char.ofNat (87 + d)

/-- The digits of `n`, the last of which are `digits`; the base is at least 2. -/
def radixDigitsBefore (base n : Nat) (digits : List Char) : List Char :=
  if h : n < base ∨ base < 2 then digitChar n :: digits
  else
    have : n / base < n := Nat.div_lt_self (by omega) (by omega)
    radixDigitsBefore base (n / base) (digitChar (n % base) :: digits)
termination_by n

/-- The digits of a natural number in a base. -/
def radixDigits (base n : Nat) : List Char :=
  radixDigitsBefore base n []

/-- The text of a double in a base. Only integers that are not too large are written in
another base than ten. -/
def radixText (base : Nat) (x : Float) : String :=
  match Number.Dyadic.ofFloat? x with
  | none => Number.scriptText x
  | some d =>
    if base = 10 || ! d.isWhole || d.whole > Limit.safeInteger then Number.scriptText x
    else
      let digits := radixDigits base d.whole
      String.ofList (if d.toInt < 0 then '-' :: digits else digits)

/-- The double that digits of a base denote. Beyond the range in which every integer is a
double each digit rounds the value anew. -/
def ofDigits (base : Nat) (digits : List Char) : Float :=
  let exact := Number.digitsValue base digits
  if exact ≤ Limit.safeInteger then Number.ofNat exact
  else digits.foldl (fun x c =>
    x * Number.ofNat base + Number.ofNat ((Number.digitValue? c).getD 0)) 0

/-- The base that an argument asks for; zero if it leaves the choice open. -/
def requestedBase (x : Float) : Nat :=
  if x.isInf then 0 else Number.toCount x

/-- Hexadecimal digits after `0x`, if the base admits that mark. -/
def hexMark (base : Nat) : List Char → Nat × List Char
  | '0' :: 'x' :: rest | '0' :: 'X' :: rest =>
    if base = 0 || base = 16 then (16, rest) else (base, '0' :: 'x' :: rest)
  | text => (base, text)

/-- The integer at the front of a text; not-a-number if there is none or if the base is
not between 2 and 36. -/
def parseInt (text : List Char) (base : Nat) : Float :=
  let (negative, body) := Number.splitSign (Text.trimStart text)
  let (base, body) := hexMark base body
  let base := if base = 0 then 10 else base
  if base < 2 || base > 36 then Number.nan
  else
    let digits := body.takeWhile fun c => (Number.digitIn? base c).isSome
    if digits.isEmpty then Number.nan
    else
      let x := ofDigits base digits
      if negative then -x else x

/-- The sign at the front of a text as it is written, and the rest. -/
def signAtFront : List Char → List Char × List Char
  | '-' :: rest => (['-'], rest)
  | '+' :: rest => (['+'], rest)
  | text => ([], text)

/-- The exponent at the front of a text; it needs at least one digit. -/
def exponentAtFront : List Char → List Char
  | c :: rest =>
    if c = 'e' || c = 'E' then
      let (sign, body) := signAtFront rest
      let digits := (Number.splitDigits body).1
      if digits.isEmpty then [] else c :: sign ++ digits
    else []
  | [] => []

/-- The longest decimal numeral at the front of a text. -/
def numeralAtFront? (text : List Char) : Option (List Char) :=
  let (sign, body) := signAtFront text
  let (whole, rest) := Number.splitDigits body
  let (fraction, rest) := match rest with
    | '.' :: more =>
      let (places, after) := Number.splitDigits more
      if whole.isEmpty && places.isEmpty then ([], rest) else ('.' :: places, after)
    | _ => ([], rest)
  if whole.isEmpty && fraction.isEmpty then none
  else some (sign ++ whole ++ fraction ++ exponentAtFront rest)

/-- The decimal number at the front of a text; not-a-number if there is none. -/
def parseFloat (text : List Char) : Float :=
  let text := Text.trimStart text
  let (sign, body) := signAtFront text
  if "Infinity".toList.isPrefixOf body then
    if sign = ['-'] then -Number.infinity else Number.infinity
  else ((numeralAtFront? text).map Number.ofText).getD Number.nan

/-- The integer that a value converts to. -/
def toBigint (heap : Heap) : Value → Except Cause Int
  | .bigint n => .ok n
  | .bool b => .ok (if b then 1 else 0)
  | .number x =>
    match Number.Dyadic.ofFloat? x with
    | some d =>
      if d.isWhole then .ok d.toInt else .error (.fractionalInteger (Number.scriptText x))
    | none => .error (.fractionalInteger (Number.scriptText x))
  | .string s =>
    match Text.trim s.toList with
    | [] => .ok 0
    | body => match Number.readInt? body with
      | some n => .ok n
      | none => .error (.integerText s)
  | value => .error (.notInteger (value.text heap))

end StepTrace.Builtin
