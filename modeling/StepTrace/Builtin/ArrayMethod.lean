import StepTrace.Builtin.Sort
import StepTrace.Builtin.TextMethod
import StepTrace.Eval.State

/-!
# Methods of arrays

Methods that change an array in place change the one that the reference leads to. A method
that takes a callback goes through the elements that the array has at the call, whatever
the callback does to the array.

* `spliced`: what is removed and what is left by `splice`.
* `Search.run`: the methods that apply a callback to element after element.
* `arrayMethod`: what a method answers.
-/

namespace StepTrace

open Syntax (Location)

/-- How a value is called with arguments; the text names the callee if it is no function. -/
abbrev Caller := Value → List Value → String → Location → Eval Value

namespace Builtin

/-- The part of a list that is cut out by removing `count` elements from `start` on, and
the list with `inserted` in its place. -/
def spliced (items : List Value) (start count : Nat) (inserted : List Value) :
    List Value × List Value :=
  let tail := items.drop start
  (tail.take count, items.take start ++ inserted ++ tail.drop count)

/-- The number of elements that `splice` removes from `start` on. -/
def spliceCount (heap : Heap) (args : List Value) (length start : Nat) : Nat :=
  match args[1]? with
  | none => length - start
  | some value => clampPosition (value.toNumber heap) (length - start)

/-- The elements with one value from one position to another. -/
def filled (items : Array Value) (value : Value) (start stop : Nat) : Array Value :=
  items.mapIdx fun k item => if start ≤ k && k < stop then value else item

/-- The text of the elements with a separator between them; empty values have the empty
text. -/
def joined (heap : Heap) (items : Array Value) (separator : String) : Except Cause Value := do
  let parts := items.toList.map fun item => if item.isNullish then "" else item.text heap
  Limit.checkString ((parts.map String.utf8ByteSize).foldr (· + ·) 0
    + separator.utf8ByteSize * (parts.length - 1))
  pure (.string (separator.intercalate parts))

/-- Equality for which not-a-number is equal to itself. -/
def sameValue (a b : Value) : Bool :=
  match a, b with
  | .number x, .number y => x == y || (x.isNaN && y.isNaN)
  | _, _ => a.strictEq b

/-- The last position whose element satisfies `p`. -/
def lastPosition? (p : Value → Bool) (items : Array Value) : Option Nat :=
  (items.reverse.findIdx? p).map fun k => items.size - 1 - k

/-- The elements of an array, and any other value as one element. -/
def spreadValue (heap : Heap) : Value → Array Value
  | .array place => heap.items place
  | value => #[value]

/-- Whether one value stands behind another in the order of their texts. -/
def textAfter (heap : Heap) (a b : Value) : Bool :=
  b.text heap < a.text heap

/-- Whether one value stands behind another: as a comparator decides, or else in the order
of their texts. -/
def sortsAfter (call : Caller) (comparator : Option Value) (loc : Location) (a b : Value) :
    Eval Bool := do
  match comparator with
  | none => Eval.consult fun heap => textAfter heap a b
  | some compare =>
    let order ← call compare [a, b] "comparator" loc
    Eval.consult fun heap => order.toNumber heap > 0

/-- The elements in order; `undefined` is never compared and comes last. -/
def sortValues (call : Caller) (comparator : Option Value) (loc : Location)
    (items : List Value) : Eval (List Value) := do
  let (absent, present) := items.partition Value.isUndefined
  return (← mergeSort (sortsAfter call comparator loc) present) ++ absent

/-- A method that applies a callback to element after element. -/
inductive Search where
  | map | forEach | filter | some | every | find | findIndex
deriving DecidableEq, Repr

/-- The name of the method. -/
def Search.name : Search → String
  | .map => "map"
  | .forEach => "forEach"
  | .filter => "filter"
  | .some => "some"
  | .every => "every"
  | .find => "find"
  | .findIndex => "findIndex"

/-- The method with the given name. -/
def Search.ofName? (name : String) : Option Search :=
  [.map, .forEach, .filter, .some, .every, .find, .findIndex].find? (·.name == name)

/-- The answer if the method need not look further after a callback's result. -/
def Search.answer? (method : Search) (index : Nat) (item result : Value) : Option Value :=
  match method with
  | .some => if result.isTruthy then Option.some (.bool true) else none
  | .every => if result.isTruthy then none else Option.some (.bool false)
  | .find => if result.isTruthy then Option.some item else none
  | .findIndex => if result.isTruthy then Option.some (.ofCount index) else none
  | _ => none

/-- What the method keeps of an element and the callback's result for it. -/
def Search.keep (method : Search) (item result : Value) : List Value :=
  match method with
  | .map => [result]
  | .filter => if result.isTruthy then [item] else []
  | _ => []

/-- The answer after the last element, from all that was kept. -/
def Search.finish (method : Search) (kept : Array Value) : Eval Value :=
  match method with
  | .map | .filter => Eval.newArray kept
  | .some => pure (.bool false)
  | .every => pure (.bool true)
  | .findIndex => pure (.number (-1))
  | .forEach | .find => pure .undefined

/-- Goes on with the element at `index`. -/
def Search.continue (method : Search) (apply : Value → Nat → Eval Value) (index : Nat)
    (kept : Array Value) : List Value → Eval Value
  | [] => method.finish kept
  | item :: rest => do
    let result ← apply item index
    match method.answer? index item result with
    | Option.some answer => pure answer
    | none => method.continue apply (index + 1) (kept ++ method.keep item result) rest

/-- Applies a callback to the elements that the array has now. -/
def Search.run (call : Caller) (method : Search) (array : Nat) (args : List Value)
    (loc : Location) : Eval Value := do
  let callback := argument args 0
  if ! callback.isFunction then
    Eval.raise loc (.notCallback (← Eval.consult callback.text))
  else
    let items ← Eval.consult (·.items array)
    let apply (item : Value) (index : Nat) : Eval Value :=
      call callback [item, .ofCount index, .array array] method.name loc
    method.continue apply 0 #[] items.toList

/-- Applies a callback to the value so far and each element in turn. -/
def reduceFrom (apply : Value → Value → Nat → Eval Value) (index : Nat) (value : Value) :
    List Value → Eval Value
  | [] => pure value
  | item :: rest => do
    reduceFrom apply (index + 1) (← apply value item index) rest

/-- Reduces the elements that the array has now to one value. -/
def reduce (call : Caller) (array : Nat) (args : List Value) (loc : Location) :
    Eval Value := do
  let items ← Eval.consult (·.items array)
  let apply (value item : Value) (index : Nat) : Eval Value :=
    call (argument args 0) [value, item, .ofCount index, .array array] "reduce callback" loc
  match args[1]?, items.toList with
  | Option.some start, items => reduceFrom apply 0 start items
  | none, first :: rest => reduceFrom apply 1 first rest
  | none, [] => Eval.raise loc .emptyReduction

/-- Changes the elements of an array and answers with the array. -/
def changed (array : Nat) (change : Array Value → Array Value) : Eval Value := do
  Eval.changeHeap (·.onArray array change)
  pure (.array array)

/-- Changes the elements of an array and answers with its new length. -/
def lengthened (array : Nat) (extra : Nat) (loc : Location)
    (change : Array Value → Array Value) : Eval Value := do
  let length ← Eval.consult fun heap => (heap.items array).size
  Eval.allow loc (Limit.checkArray (length + extra))
  Eval.changeHeap (·.onArray array change)
  pure (.ofCount (length + extra))

/-- What a method of an array answers. -/
def arrayMethod (call : Caller) (array : Nat) (method : String) (args : List Value)
    (loc : Location) : Eval Value := do
  match method with
  | "push" => lengthened array args.length loc (· ++ args)
  | "unshift" => lengthened array args.length loc (args.toArray ++ ·)
  | "pop" =>
    let last ← Eval.consult fun heap => (heap.items array).back?.getD .undefined
    Eval.changeHeap (·.onArray array Array.pop)
    pure last
  | "shift" =>
    let first ← Eval.consult fun heap => (heap.items array)[0]?.getD .undefined
    Eval.changeHeap (·.onArray array (·.eraseIdxIfInBounds 0))
    pure first
  | "fill" =>
    let (start, stop) ← Eval.consult fun heap =>
      let length := (heap.items array).size
      (relativePosition heap args 1 length 0, relativePosition heap args 2 length length)
    changed array (filled · (argument args 0) start stop)
  | "slice" =>
    let part ← Eval.consult fun heap =>
      let items := heap.items array
      items.extract (relativePosition heap args 0 items.size 0)
        (relativePosition heap args 1 items.size items.size)
    Eval.newArray part
  | "splice" =>
    let (removed, left) ← Eval.consult fun heap =>
      let items := heap.items array
      let start := relativePosition heap args 0 items.size 0
      spliced items.toList start (spliceCount heap args items.size start) (args.drop 2)
    Eval.changeHeap (·.onArray array fun _ => left.toArray)
    Eval.unchecked array
    Eval.newArray removed.toArray
  | "indexOf" =>
    Eval.consult fun heap => foundAt ((heap.items array).findIdx? (·.strictEq (argument args 0)))
  | "lastIndexOf" =>
    Eval.consult fun heap => foundAt (lastPosition? (·.strictEq (argument args 0))
      (heap.items array))
  | "includes" =>
    Eval.consult fun heap => .bool ((heap.items array).any (sameValue · (argument args 0)))
  | "join" | "toString" =>
    Eval.consultAt loc fun heap =>
      joined heap (heap.items array) (((given? args 0).map fun value => value.text heap).getD ",")
  | "reverse" => changed array Array.reverse
  | "sort" =>
    let items ← Eval.consult (·.items array)
    let sorted ← sortValues call (given? args 0) loc items.toList
    changed array fun _ => sorted.toArray
  | "concat" =>
    let length ← Eval.consult fun heap =>
      (args.map fun value => (spreadValue heap value).size).foldr (· + ·) (heap.items array).size
    Eval.allow loc (Limit.checkArray length)
    let items ← Eval.consult fun heap =>
      args.foldl (fun items value => items ++ spreadValue heap value) (heap.items array)
    Eval.newArray items
  | "at" =>
    Eval.consult fun heap =>
      let items := heap.items array
      ((positionFromEnd? (numberArgument heap args 0) items.size).bind (items[·]?)).getD
        .undefined
  | "reduce" => reduce call array args loc
  | _ =>
    match Search.ofName? method with
    | Option.some search => search.run call array args loc
    | none => Eval.raise loc (.notFunction ("array." ++ method))

end Builtin

end StepTrace
