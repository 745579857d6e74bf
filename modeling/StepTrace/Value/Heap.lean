import StepTrace.Value.Basic
import Std.Data.TreeMap

/-!
# The heap

Arrays and objects live in the heap, each kind numbered in the order in which its members
are made. Nothing is ever removed. The fields of an object have no order of their own;
listings show them in the order of their names.

Of a function the heap holds only its name. That is all that a question about a value can
depend on; the code of the functions is kept apart from the heap.

A `Write` is one change of one container, decided before it is carried out.

* `Heap.items`, `Heap.fields`: the contents of a container.
* `Heap.perform`: carries out a change.
-/

namespace StepTrace

/-- The fields of an object. -/
abbrev Fields := Std.TreeMap String Value

/-- The contents of all arrays and objects, and the names of all functions. -/
structure Heap where
  arrays : Array (Array Value)
  objects : Array Fields
  functions : Array (Option String)

/-- One change of one container. -/
inductive Write where
  /-- Nothing changes. -/
  | nothing
  /-- The element at `index`; an array that is too short grows. -/
  | item (array index : Nat) (value : Value)
  /-- The array is cut or grown to `length`. -/
  | length (array length : Nat)
  /-- The field called `name`. -/
  | field (object : Nat) (name : String) (value : Value)

/-- The array cut or, with `undefined`, grown to the length. -/
def resize (items : Array Value) (length : Nat) : Array Value :=
  if length < items.size then items.take length
  else items ++ Array.replicate (length - items.size) Value.undefined

namespace Heap

/-- The heap without any container or function. -/
def empty : Heap :=
  ⟨#[], #[], #[]⟩

/-- The elements of an array. -/
def items (heap : Heap) (array : Nat) : Array Value :=
  heap.arrays[array]?.getD #[]

/-- The fields of an object. -/
def fields (heap : Heap) (object : Nat) : Fields :=
  heap.objects[object]?.getD ∅

/-- The number of arrays and objects. -/
def containers (heap : Heap) : Nat :=
  heap.arrays.size + heap.objects.size

/-- Adds an array; its number is `heap.arrays.size`. -/
def addArray (heap : Heap) (items : Array Value) : Heap :=
  { heap with arrays := heap.arrays.push items }

/-- Adds an object; its number is `heap.objects.size`. -/
def addObject (heap : Heap) (fields : Fields) : Heap :=
  { heap with objects := heap.objects.push fields }

/-- Adds a function; its number is `heap.functions.size`. -/
def addFunction (heap : Heap) (name : Option String) : Heap :=
  { heap with functions := heap.functions.push name }

/-- Changes the elements of one array. -/
def onArray (heap : Heap) (array : Nat) (change : Array Value → Array Value) : Heap :=
  { heap with arrays := heap.arrays.modify array change }

/-- Changes the fields of one object. -/
def onObject (heap : Heap) (object : Nat) (change : Fields → Fields) : Heap :=
  { heap with objects := heap.objects.modify object change }

/-- Carries out one change. -/
def perform (heap : Heap) : Write → Heap
  | .nothing => heap
  | .item array index value => heap.onArray array fun items =>
    if index < items.size then items.setIfInBounds index value
    else (resize items index).push value
  | .length array length => heap.onArray array (resize · length)
  | .field object name value => heap.onObject object (·.insert name value)

end Heap

end StepTrace
