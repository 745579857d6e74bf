import StepTrace.Syntax.Tree
import StepTrace.Number.Bits
import StepTrace.Value.Equality
import StepTrace.Value.Limit

/-!
# Operators

What an operator answers for operands that are already values. `+` concatenates if one
operand is a string or a container. Numbers of the two kinds never meet in one operation.
An integer result that might be too wide is refused before it is computed.

* `Value.binary`: the operators between two operands.
* `Value.negate`, `plus`, `bitNot`: the operators before one operand.
-/

namespace StepTrace.Value

open Syntax (StrictOp)

/-- A power of doubles. An exponent that is not-a-number and the powers of one and minus one
to an infinite exponent have no value. -/
def power (base exponent : Float) : Float :=
  if exponent.isNaN || (base.abs == 1 && exponent.isInf) then Number.nan
  else base.pow exponent

/-- A power of integers, refused if it could be too wide. Zero, one and minus one never
grow. -/
def bigintPower (base exponent : Int) : Except Cause Int :=
  if exponent < 0 then .error .negativeExponent
  else if exponent ≥ (1 <<< 32 : Nat) then .error .bigintSize
  else
    let bits := Number.bitLength base
    let n := exponent.toNat
    if bits > 1 then do
      Limit.checkBits (bits * n)
      pure (Int.pow base n)
    else if base = -1 then pure (if n % 2 = 0 then 1 else -1)
    else pure (if n = 0 then 1 else base)

/-- The amount of a shift: a count of 64 bits. -/
def shiftAmount (n : Int) : Except Cause Nat :=
  if n < 0 || n ≥ (1 <<< 64 : Nat) then .error .shiftAmount else .ok n.toNat

/-- An arithmetic operator on two integers. Division and remainder round towards zero. -/
def bigintArithmetic (op : StrictOp) (a b : Int) : Except Cause Int :=
  match op with
  | .add => pure (a + b)
  | .sub => pure (a - b)
  | .mul => do
    Limit.checkBits (Number.bitLength a + Number.bitLength b)
    pure (a * b)
  | .div => if b = 0 then .error .divisionByZero else pure (a.tdiv b)
  | .mod => if b = 0 then .error .divisionByZero else pure (a.tmod b)
  | _ => bigintPower a b

/-- An arithmetic operator on two doubles. -/
def numberArithmetic (op : StrictOp) (x y : Float) : Float :=
  match op with
  | .add => x + y
  | .sub => x - y
  | .mul => x * y
  | .div => x / y
  | .mod => Number.remainder x y
  | _ => power x y

/-- An arithmetic operator. -/
def arithmetic (heap : Heap) (op : StrictOp) (a b : Value) : Except Cause Value :=
  match a, b with
  | .bigint m, .bigint n => .bigint <$> bigintArithmetic op m n
  | .bigint _, _ | _, .bigint _ => .error .mixedNumbers
  | _, _ => .ok (.number (numberArithmetic op (a.toNumber heap) (b.toNumber heap)))

/-- Whether `+` reads the operand as text. -/
def isTextual : Value → Bool
  | .string _ | .array _ | .object _ => true
  | _ => false

/-- The sum of two values, or their texts one after the other. -/
def add (heap : Heap) (a b : Value) : Except Cause Value :=
  if a.isTextual || b.isTextual then do
    let s := a.text heap
    let t := b.text heap
    Limit.checkString (s.utf8ByteSize + t.utf8ByteSize)
    pure (.string (s ++ t))
  else arithmetic heap .add a b

/-- An operator on the bits of two integers of any width. -/
def bigintBitwise (op : StrictOp) (a b : Int) : Except Cause Int :=
  match op with
  | .bitAnd => pure (Number.bitAnd a b)
  | .bitOr => pure (Number.bitOr a b)
  | .bitXor => pure (Number.bitXor a b)
  | .shiftLeft => do
    let amount ← shiftAmount b
    Limit.checkBits (Number.bitLength a + amount)
    pure (Number.shiftLeft a amount)
  | _ => do return Number.shiftRight a (← shiftAmount b)

/-- An operator on the bits of two integers of 32 bits; of the amount of a shift the low
five bits count. -/
def wordBitwise (op : StrictOp) (a b : Int) : Int :=
  let amount := (b % 32).toNat
  let result := match op with
    | .bitAnd => Number.bitAnd a b
    | .bitOr => Number.bitOr a b
    | .bitXor => Number.bitXor a b
    | .shiftLeft => Number.shiftLeft a amount
    | _ => Number.shiftRight a amount
  result.bmod (1 <<< 32)

/-- An operator on bits. -/
def bitwise (heap : Heap) (op : StrictOp) (a b : Value) : Except Cause Value :=
  match a, b with
  | .bigint m, .bigint n => .bigint <$> bigintBitwise op m n
  | .bigint _, _ | _, .bigint _ => .error .mixedNumbers
  | _, _ =>
    let m := Number.toInt32 (a.toNumber heap)
    let n := Number.toInt32 (b.toNumber heap)
    .ok (.number (Number.ofInt (wordBitwise op m n)))

/-- An operator between two operands. -/
def binary (heap : Heap) (op : StrictOp) (a b : Value) : Except Cause Value :=
  match op with
  | .add => add heap a b
  | .sub | .mul | .div | .mod | .pow => arithmetic heap op a b
  | .equal => .ok (.bool (looseEq heap a b))
  | .notEqual => .ok (.bool (! looseEq heap a b))
  | .strictEqual => .ok (.bool (strictEq a b))
  | .strictNotEqual => .ok (.bool (! strictEq a b))
  | .less => .ok (.bool (compare? heap a b == some .lt))
  | .lessEqual => .ok (.bool ((compare? heap a b).any (· != .gt)))
  | .greater => .ok (.bool (compare? heap a b == some .gt))
  | .greaterEqual => .ok (.bool ((compare? heap a b).any (· != .lt)))
  | .bitAnd | .bitOr | .bitXor | .shiftLeft | .shiftRight => bitwise heap op a b

/-- The value with the other sign. -/
def negate (heap : Heap) : Value → Value
  | .bigint n => .bigint (-n)
  | value => .number (-(value.toNumber heap))

/-- The value as a number; an integer of unlimited size is refused. -/
def plus (heap : Heap) : Value → Except Cause Value
  | .bigint _ => .error .bigintToNumber
  | value => .ok (.number (value.toNumber heap))

/-- The value with every bit flipped. -/
def bitNot (heap : Heap) : Value → Value
  | .bigint n => .bigint (Number.bitNot n)
  | value => .number (Number.ofInt (Number.bitNot (Number.toInt32 (value.toNumber heap))))

/-- The value as a number of either kind. -/
def toNumeric (heap : Heap) : Value → Value
  | .bigint n => .bigint n
  | value => .number (value.toNumber heap)

/-- The number one more or one less. -/
def stepped (heap : Heap) (up : Bool) : Value → Value
  | .bigint n => .bigint (if up then n + 1 else n - 1)
  | value => .number (value.toNumber heap + if up then 1 else -1)

end StepTrace.Value
