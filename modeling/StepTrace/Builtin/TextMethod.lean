import StepTrace.Builtin.Conversion
import StepTrace.Text.Case
import StepTrace.Text.Search

/-!
# Methods of strings and numbers

A string is a sequence of code points, and positions count them. A position argument that
is negative counts from the end where the method says so, and a position outside the string
is moved to its nearer end.

* `relativePosition`: the position that an argument of `slice` gives.
* `splitText`: the pieces of `split`.
* `stringMethod`, `numberMethod`: what a method answers.
-/

namespace StepTrace.Builtin

/-- An argument, `undefined` if it is missing. -/
def argument (args : List Value) (k : Nat) : Value :=
  args[k]?.getD .undefined

/-- An argument as a number, not-a-number if it is missing. -/
def numberArgument (heap : Heap) (args : List Value) (k : Nat) : Float :=
  (args[k]?.map fun value => value.toNumber heap).getD Number.nan

/-- An argument unless it is missing or `undefined`. -/
def given? (args : List Value) (k : Nat) : Option Value :=
  args[k]?.filter fun value => ! value.isUndefined

/-- A number moved into the range from nothing to `length`, after a negative one has been
counted from the end. -/
def fromEitherEnd (x : Float) (length : Nat) : Nat :=
  match Number.toInt? x with
  | some n => if n < 0 then (length + n).toNat else min n.toNat length
  | none => if x > 0 then length else 0

/-- The position that an argument gives in a sequence of `length` elements. -/
def relativePosition (heap : Heap) (args : List Value) (k length default : Nat) : Nat :=
  match given? args k with
  | none => default
  | some value => fromEitherEnd (value.toNumber heap) length

/-- A number moved into the range from nothing to `length`. -/
def clampPosition (x : Float) (length : Nat) : Nat :=
  match Number.toInt? x with
  | some n => min n.toNat length
  | none => if x > 0 then length else 0

/-- The position that a number names; not-a-number names the first. -/
def plainPosition? (x : Float) : Option Nat :=
  match Number.toInt? x with
  | some n => if n < 0 then none else some n.toNat
  | none => if x.isNaN then some 0 else none

/-- The position that a number names when negative ones count from the end. -/
def positionFromEnd? (x : Float) (length : Nat) : Option Nat :=
  match Number.toInt? x with
  | some n =>
    let k := if n < 0 then length + n else n
    if k < 0 then none else some k.toNat
  | none => if x.isNaN then some 0 else none

/-- Where the piece occurs first at or after a position. -/
def indexFrom? (piece text : List Char) (start : Nat) : Option Nat :=
  if piece.isEmpty then some (min start text.length)
  else (Text.cutFirst? piece (text.drop start)).map fun (before, _) => start + before.length

/-- A position as the answer of a search, minus one if nothing was found. -/
def foundAt (found : Option Nat) : Value :=
  match found with
  | some k => .ofCount k
  | none => .number (-1)

/-- The pieces of a text between the separators that an argument gives. Without a
separator the text is one piece; the empty separator stands between any two characters. -/
def splitText (heap : Heap) (s : String) (args : List Value) : List Value :=
  match given? args 0 with
  | none => [.string s]
  | some value =>
    let separator := value.text heap
    if separator.isEmpty then s.toList.map Value.ofChar
    else (Text.cut separator.toList s.toList).map fun piece => .string (String.ofList piece)

/-- The text written `count` times; a count that is negative or infinite is refused, and so
is a text that would be too long. -/
def repeatText (s : String) (count : Float) : Except Cause String := do
  match Number.toInt? count with
  | some n =>
    if n < 0 then throw (.repeatCount (Number.scriptText (Number.ofInt n)))
    if s.isEmpty then return ""
    Limit.checkString (n.toNat * s.utf8ByteSize)
    return String.join (List.replicate n.toNat s)
  | none =>
    if count.isNaN then return "" else throw (.repeatCount (Number.scriptText count))

/-- The texts one after the other, as long as that is admitted. -/
def concatTexts (s : String) : List String → Except Cause String
  | [] => pure s
  | t :: rest => do
    let joined := s ++ t
    Limit.checkString joined.utf8ByteSize
    concatTexts joined rest

/-- The characters from one position to another. -/
def segment (cs : List Char) (start stop : Nat) : Value :=
  .string (String.ofList ((cs.take stop).drop start))

/-- What a method of a string answers; `split` makes an array and is not among them. -/
def stringMethod (heap : Heap) (s : String) (method : String) (args : List Value) :
    Except Cause Value :=
  let cs := s.toList
  let length := cs.length
  let number := numberArgument heap args
  let textArgument := ((args[0]?.map fun value => value.text heap).getD "undefined").toList
  match method with
  | "charAt" =>
    .ok (((plainPosition? (number 0)).bind fun k => cs[k]?.map Value.ofChar).getD (.string ""))
  | "charCodeAt" =>
    .ok (.number (((plainPosition? (number 0)).bind fun k =>
      cs[k]?.map fun c => Number.ofNat c.toNat).getD Number.nan))
  | "at" =>
    .ok (((positionFromEnd? (number 0) length).bind fun k =>
      cs[k]?.map Value.ofChar).getD .undefined)
  | "indexOf" =>
    .ok (foundAt (indexFrom? textArgument cs (relativePosition heap args 1 length 0)))
  | "includes" =>
    .ok (.bool (indexFrom? textArgument cs (relativePosition heap args 1 length 0)).isSome)
  | "startsWith" => .ok (.bool (textArgument.isPrefixOf cs))
  | "endsWith" => .ok (.bool (textArgument.isSuffixOf cs))
  | "toUpperCase" => .ok (.string (String.ofList (Text.upperCase cs)))
  | "toLowerCase" => .ok (.string (String.ofList (Text.lowerCase cs)))
  | "trim" => .ok (.string (String.ofList (Text.trim cs)))
  | "substring" =>
    let position (k default : Nat) : Nat :=
      ((given? args k).map fun value => clampPosition (value.toNumber heap) length).getD default
    let a := position 0 0
    let b := position 1 length
    .ok (segment cs (min a b) (max a b))
  | "slice" =>
    .ok (segment cs (relativePosition heap args 0 length 0)
      (relativePosition heap args 1 length length))
  | "repeat" => .string <$> repeatText s (number 0)
  | "concat" => .string <$> concatTexts s (args.map fun value => value.text heap)
  | "toString" => .ok (.string s)
  | _ => .error (.notFunction ("string." ++ method))

/-- Whether the method of a string puts letters in the place of others. Nothing limits how long
its answer is: one letter may stand for several. -/
def changesCase (method : String) : Bool :=
  method == "toUpperCase" || method == "toLowerCase"

/-- The text of a number with as many decimal places as an argument asks for. -/
def fixedNumber (x : Float) (places : Option Int) : Except Cause String :=
  match places with
  | none => .error .fixedDigits
  | some n =>
    if n < 0 || n > 100 then .error .fixedDigits
    else match Number.Dyadic.ofFloat? x with
      | none => .ok (Number.scriptText x)
      | some d =>
        .ok (if x.abs ≥ 1e21 then Number.scriptText x else Number.fixedText n.toNat d)

/-- What a method of a number answers. -/
def numberMethod (heap : Heap) (x : Float) (method : String) (args : List Value) :
    Except Cause Value :=
  match method with
  | "toFixed" =>
    let places := match given? args 0 with
      | none => some 0
      | some value => Number.toInt? (value.toNumber heap)
    .string <$> fixedNumber x places
  | "toString" =>
    let base := ((given? args 0).map fun value => Number.toCount (value.toNumber heap)).getD 10
    if base < 2 || base > 36 then .error .radix else .ok (.string (radixText base x))
  | _ => .error (.notFunction ("number." ++ method))

end StepTrace.Builtin
