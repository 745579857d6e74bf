import StepTrace.Json
import StepTrace.Value.Heap
import StepTrace.Value.Limit

/-!
# Snapshots

A snapshot is the document that shows a value at one moment. Containers are copied all the
way down, one that is shared as often as it is met. A function has no snapshot, and neither
has a value inside which a container contains itself. Integers of unlimited size are shown
as text, and so are never confused with numbers.

* `Value.snapshot?`: the snapshot, if the value has one.
-/

namespace StepTrace

/-- The document for a double: an integer if it is one and not too large, nothing for the
infinities and not-a-number. -/
def Json.ofFloat (x : Float) : Json :=
  match Number.Dyadic.ofFloat? x with
  | none => .null
  | some d =>
    if d.isWhole && d.whole ≤ Limit.safeInteger then .int d.toInt else .number d

namespace Value

/-- A container: an array or an object. -/
inductive Place where
  | array (place : Nat)
  | object (place : Nat)
deriving DecidableEq, Repr

/-- The snapshot of a value inside the containers `inside`, which must not be met again.
References are followed at most `depth` levels deep. Functions inside containers are shown
as nothing by arrays and left out by objects. -/
def snapshotWithin (heap : Heap) : Nat → List Place → Value → Option Json
  | 0, _, .array _ | 0, _, .object _ => none
  | depth + 1, inside, .array place =>
    if inside.contains (.array place) then none
    else
      ((heap.items place).toList.mapM (snapshotWithin heap depth (.array place :: inside))).map
        .array
  | depth + 1, inside, .object place =>
    if inside.contains (.object place) then none
    else
      let shown := (heap.fields place).toList.filter fun field =>
        ! (field.2.isFunction || field.2.isUndefined)
      (shown.mapM fun field =>
        (snapshotWithin heap depth (.object place :: inside) field.2).map fun json =>
          (field.1, json)).map .object
  | _, _, .undefined | _, _, .null | _, _, .function _ | _, _, .native _ => some .null
  | _, _, .bool b => some (.bool b)
  | _, _, .number x => some (.ofFloat x)
  | _, _, .bigint n => some (.string (String.ofList (Number.intText n)))
  | _, _, .string s => some (.string s)

/-- The snapshot of a value. A way through the heap that is longer than there are
containers meets one of them twice, so the bound on the depth is never reached. -/
def snapshot? (heap : Heap) (value : Value) : Option Json :=
  if value.isFunction then none else snapshotWithin heap (heap.containers + 1) [] value

end Value

end StepTrace
