import StepTrace.Value.Limit
import StepTrace.Value.Text

/-!
# Properties of values

A property is named by a member name (`a.length`) or by a key (`a[0]`). On an array and on
a string a key that is a position names an element; any other key names the member that its
text spells. A position is a number that is a non-negative integer, or the decimal text of
one.

Reading a property that is not there gives `undefined`. Setting a property is decided
first, as a `Write`, so a refused one changes nothing. What is set on a value that is no
container is lost.

* `Value.member`, `Value.indexed`: reading.
* `Value.setMember`, `Value.setIndexed`: setting.
* `Value.elements`: the elements that a loop goes through.
-/

namespace StepTrace

/-- The properties of the functions that the language provides. -/
def Native.member : Native → String → Value
  | .number, "MAX_SAFE_INTEGER" => .number (Number.ofNat Limit.safeInteger)
  | .number, "MIN_SAFE_INTEGER" => .number (-Number.ofNat Limit.safeInteger)
  | .number, "POSITIVE_INFINITY" => .number Number.infinity
  | .number, "NEGATIVE_INFINITY" => .number (-Number.infinity)
  | .number, "EPSILON" => .number (Number.Dyadic.toFloat ⟨false, 1, -52⟩)
  | .number, "isInteger" => .native .isInteger
  | .number, "isNaN" => .native .numberIsNaN
  | .number, "parseInt" => .native .parseInt
  | .number, "parseFloat" => .native .parseFloat
  | .array, "from" => .native .arrayFrom
  | .array, "isArray" => .native .isArray
  | _, _ => .undefined

namespace Value

/-- The position that a text spells without a sign and without needless zeros. -/
def positionOfText? (text : String) : Option Nat :=
  (Number.readCount? 10 text.toList).filter fun n => Number.decimal n == text.toList

/-- The position that a key names. -/
def position? : Value → Option Nat
  | .number x => if x ≥ 0 && Number.isInteger x then some (Number.toCount x) else none
  | .string s => positionOfText? s
  | _ => none

/-- The element at a position of an array. -/
def item (heap : Heap) (array position : Nat) : Value :=
  ((heap.items array)[position]?).getD .undefined

/-- The property with the given name. -/
def member (heap : Heap) (container : Value) (name : String) : Except Cause Value :=
  match container with
  | .array place =>
    if name = "length" then .ok (ofCount (heap.items place).size)
    else .ok (((Number.readCount? 10 name.toList).map (item heap place)).getD .undefined)
  | .string s => .ok (if name = "length" then ofCount s.length else .undefined)
  | .object place => .ok ((heap.fields place)[name]?.getD .undefined)
  | .native f => .ok (f.member name)
  | .undefined | .null => .error (.readOfNothing (container.text heap) name)
  | _ => .ok .undefined

/-- The property that the key names. -/
def indexed (heap : Heap) (container key : Value) : Except Cause Value :=
  match container with
  | .array place =>
    match key.position? with
    | some n => .ok (item heap place n)
    | none => member heap container (key.text heap)
  | .string s =>
    match key.position? with
    | some n => .ok ((s.toList[n]?.map ofChar).getD .undefined)
    | none => member heap container (key.text heap)
  | _ => member heap container (key.text heap)

/-- The change that puts a value at a position of an array, which may have to grow. -/
def setItem (heap : Heap) (array position : Nat) (value : Value) : Except Cause Write :=
  if position ≥ (heap.items array).size then do
    Limit.checkArray (position + 1)
    pure (.item array position value)
  else pure (.item array position value)

/-- The change that cuts or grows an array to the length that a value gives. -/
def setLength (heap : Heap) (array : Nat) (value : Value) : Except Cause Write := do
  let length := value.toNumber heap
  if length < 0 || ! Number.isInteger length then throw .arrayLength
  Limit.checkArray (Number.toCount length)
  pure (.length array (Number.toCount length))

/-- The change that sets the property with the given name. -/
def setMember (heap : Heap) (container : Value) (name : String) (value : Value) :
    Except Cause Write :=
  match container with
  | .array place =>
    if name = "length" then setLength heap place value
    else match Number.readCount? 10 name.toList with
      | some n => setItem heap place (Number.toCount (Number.ofNat n)) value
      | none => .ok .nothing
  | .object place => .ok (.field place name value)
  | .undefined | .null => .error (.writeOfNothing (container.text heap) name)
  | _ => .ok .nothing

/-- The change that sets the property that the key names. A key of an array that is neither
a position nor a string sets nothing. -/
def setIndexed (heap : Heap) (container key value : Value) : Except Cause Write :=
  match container with
  | .array place =>
    match key.position?, key with
    | some n, _ => setItem heap place n value
    | none, .string name => setMember heap container name value
    | none, _ => .ok .nothing
  | _ => setMember heap container (key.text heap) value

/-- The elements that a loop over the value goes through: those of an array, or the
characters of a string. -/
def elements (heap : Heap) : Value → Except Cause (Array Value)
  | .array place => .ok (heap.items place)
  | .string s => .ok (s.toList.map ofChar).toArray
  | value => .error (.notIterable (value.text heap))

/-- Exactly `count` elements: the first ones, with `undefined` for those that are
missing. -/
def firstElements (heap : Heap) (value : Value) (count : Nat) : Except Cause (List Value) := do
  return (resize (← elements heap value) count).toList

end Value

end StepTrace
