/-!
# Bits of integers

An integer is read as its binary digits, a negative one with ones without end to the left.
Then `-n - 1` has every digit of `n` flipped, and the operations on negative integers come
down to operations on natural numbers.

* `bitLength`: the number of digits of the magnitude.
* `bitAnd`, `bitOr`, `bitXor`, `bitNot`, `shiftLeft`, `shiftRight`.
-/

namespace StepTrace.Number

/-- The number of binary digits of the magnitude; zero has none. -/
def bitLength (n : Int) : Nat :=
  if n = 0 then 0 else n.natAbs.log2 + 1

/-- Every digit flipped. -/
def bitNot (n : Int) : Int :=
  -n - 1

/-- The digits of `m` that are no digits of `n`. -/
def clearBits (m n : Nat) : Nat :=
  m ^^^ (m &&& n)

/-- The digits that both have. -/
def bitAnd : Int → Int → Int
  | .ofNat m, .ofNat n => Int.ofNat (m &&& n)
  | .ofNat m, .negSucc n => Int.ofNat (clearBits m n)
  | .negSucc m, .ofNat n => Int.ofNat (clearBits n m)
  | .negSucc m, .negSucc n => Int.negSucc (m ||| n)

/-- The digits that at least one has. -/
def bitOr : Int → Int → Int
  | .ofNat m, .ofNat n => Int.ofNat (m ||| n)
  | .ofNat m, .negSucc n => Int.negSucc (clearBits n m)
  | .negSucc m, .ofNat n => Int.negSucc (clearBits m n)
  | .negSucc m, .negSucc n => Int.negSucc (m &&& n)

/-- The digits that exactly one has. -/
def bitXor : Int → Int → Int
  | .ofNat m, .ofNat n => Int.ofNat (m ^^^ n)
  | .ofNat m, .negSucc n => Int.negSucc (m ^^^ n)
  | .negSucc m, .ofNat n => Int.negSucc (m ^^^ n)
  | .negSucc m, .negSucc n => Int.ofNat (m ^^^ n)

/-- The digits moved to the left. -/
def shiftLeft (n : Int) (amount : Nat) : Int :=
  n * (1 <<< amount : Nat)

/-- The digits moved to the right, those that fall off being dropped. An amount beyond the
width leaves the sign alone. -/
def shiftRight (n : Int) (amount : Nat) : Int :=
  if amount ≥ bitLength n then (if n < 0 then -1 else 0) else n >>> amount

end StepTrace.Number
