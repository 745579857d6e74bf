import StepTrace.Value.Text

/-!
# Equality and order of values

Strict equality compares values of one kind; containers and functions are equal to
themselves only. Loose equality converts first: a container to its text, an operand of
another kind to a number. The two empty values are loosely equal to each other and to
nothing else.

* `Value.strictEq`, `Value.looseEq`.
* `Value.compare?`: the order of two values; `none` if not-a-number is involved.
-/

namespace StepTrace.Value

/-- Equality of two values of one kind. -/
def strictEq : Value → Value → Bool
  | .undefined, .undefined | .null, .null => true
  | .bool a, .bool b => a == b
  | .number a, .number b => a == b
  | .bigint a, .bigint b => a == b
  | .string a, .string b => a == b
  | .array a, .array b => a == b
  | .object a, .object b => a == b
  | .function a, .function b => a == b
  | .native a, .native b => a == b
  | _, _ => false

/-- Whether the text writes the integer; blanks around it do not count. -/
def writesInt (text : String) (n : Int) : Bool :=
  Number.readInt? (Text.trim text.toList) == some n

/-- Equality of two values neither of which is a container. -/
def looseEqPlain (heap : Heap) (a b : Value) : Bool :=
  match a, b with
  | .bigint n, .number x | .number x, .bigint n => Number.ofInt n == x
  | .bigint n, .string s | .string s, .bigint n => writesInt s n
  | .number _, .string _ | .number _, .bool _ | .string _, .number _ | .string _, .bool _
  | .bool _, .number _ | .bool _, .string _ => a.toNumber heap == b.toNumber heap
  | _, _ => a.strictEq b

/-- Equality of two values after conversion. -/
def looseEq (heap : Heap) (a b : Value) : Bool :=
  if a.isNullish || b.isNullish then a.isNullish && b.isNullish
  else match a, b with
    | .array _, .number _ | .array _, .string _ | .object _, .number _ | .object _, .string _ =>
      looseEqPlain heap (.string (a.text heap)) b
    | .number _, .array _ | .string _, .array _ | .number _, .object _ | .string _, .object _ =>
      looseEqPlain heap (.string (b.text heap)) a
    | _, _ => looseEqPlain heap a b

/-- The order of two doubles; not-a-number has none. -/
def compareFloats? (x y : Float) : Option Ordering :=
  if x < y then some .lt
  else if x > y then some .gt
  else if x == y then some .eq
  else none

/-- The order of two values: of two strings by their characters, of two integers exactly,
of anything else as numbers. -/
def compare? (heap : Heap) (a b : Value) : Option Ordering :=
  match a, b with
  | .string s, .string t => some (compare s t)
  | .bigint m, .bigint n => some (compare m n)
  | _, _ => compareFloats? (a.toNumber heap) (b.toNumber heap)

end StepTrace.Value
