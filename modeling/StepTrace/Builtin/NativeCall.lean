import StepTrace.Builtin.ArrayMethod
import StepTrace.Builtin.Math

/-!
# Calls of provided functions and of methods

What the functions that the language provides answer, and which method a call on a value
means. Values other than arrays, strings and numbers have no methods of their own: calling
one of them calls the property of that name.

* `Native.call`, `Value.callMethod`.
* `Native.globals`: the names that are bound before a program begins.
-/

namespace StepTrace

open Syntax (Location)

namespace Builtin

/-- An array of the length that a single number gives, or of all arguments. -/
def makeArray (args : List Value) (loc : Location) : Eval Value := do
  match args with
  | [.number x] =>
    if x < 0 || ! Number.isInteger x then Eval.raise loc .arrayLength
    else
      let length := Number.toCount x
      Eval.allow loc (Limit.checkArray length)
      Eval.newArray (Array.replicate length .undefined)
  | _ => Eval.newUnchecked args.toArray

/-- The number of elements that an object with a length stands for. -/
def statedLength (heap : Heap) (fields : Fields) : Except Cause Nat := do
  let x := (fields["length"]?.map fun value => value.toNumber heap).getD 0
  if x.isInf && x > 0 then throw .arrayLength
  Limit.checkArray (Number.toCount x)
  pure (Number.toCount x)

/-- The elements that a value stands for when an array is made from it. -/
def sourceElements (heap : Heap) (source : Value) : Except Cause (Array Value) :=
  match source with
  | .array _ | .string _ => source.elements heap
  | .object place => do
    return Array.replicate (← statedLength heap (heap.fields place)) .undefined
  | _ => .ok #[]

/-- The results of a callback for element after element. -/
def mapFrom (apply : Value → Nat → Eval Value) (index : Nat) (results : Array Value) :
    List Value → Eval (Array Value)
  | [] => pure results
  | item :: rest => do
    let result ← apply item index
    mapFrom apply (index + 1) (results.push result) rest

/-- The elements themselves, or the results of a callback for them. -/
def mapped (call : Caller) (mapper : Option Value) (loc : Location) (items : Array Value) :
    Eval (Array Value) :=
  match mapper with
  | none => pure items
  | some mapper =>
    let apply (item : Value) (index : Nat) : Eval Value :=
      call mapper [item, .ofCount index] "Array.from mapper" loc
    mapFrom apply 0 #[] items.toList

/-- An array with the elements that a value stands for, or with the results of a callback
for them. Only a string can stand for more elements than an array may have. -/
def arrayFrom (call : Caller) (args : List Value) (loc : Location) : Eval Value := do
  let source := argument args 0
  let items ← Eval.consultAt loc fun heap => sourceElements heap source
  let elements ← mapped call (given? args 1) loc items
  match source with
  | .string _ => Eval.newUnchecked elements
  | _ => Eval.newArray elements

/-- The document of a value as text; functions and `undefined` have none. -/
def stringify (heap : Heap) (value : Value) : Except Cause Value :=
  if value.isFunction || value.isUndefined then .ok .undefined
  else match value.snapshot? heap with
    | some json => .ok (.string json.compact)
    | none => .error .circular

/-- What the listing shows of a field. -/
def listed (what : Listing) (name : String) (value : Value) : Eval Value :=
  match what with
  | .keys => Eval.untested (.string name)
  | .values => pure value
  | .entries => do
    let shown ← Eval.untested (.string name)
    Eval.newArray #[shown, value]

/-- What the listing shows of field after field. -/
def listFrom (what : Listing) (shown : Array Value) : List (String × Value) → Eval (Array Value)
  | [] => pure shown
  | (name, value) :: rest => do
    let entry ← listed what name value
    listFrom what (shown.push entry) rest

/-- The fields of an object, in the order of their names, as the listing shows them. What
is no object has no fields. -/
def listing (what : Listing) (value : Value) : Eval Value := do
  let fields ← Eval.consult fun heap => match value with
    | .object place => (heap.fields place).toList
    | _ => []
  Eval.newUnchecked (← listFrom what #[] fields)

/-- The object that describes an error. -/
def makeError (args : List Value) : Eval Value := do
  let message ← Eval.consult fun heap =>
    .string (((given? args 0).map fun value => value.text heap).getD "")
  let message ← Eval.untested message
  Eval.newObject (.ofList [("name", Value.string "Error"), ("message", message)])

end Builtin

/-- What a function that the language provides answers. -/
def Native.call (call : Caller) (f : Native) (args : List Value) (loc : Location) :
    Eval Value :=
  match f with
  | .console _ => pure .undefined
  | .math f => Eval.consult fun heap => .number (f.apply (args.map fun value =>
      value.toNumber heap))
  | .number => Eval.consult fun heap => .number ((args.head?.map fun value =>
      value.toNumber heap).getD 0)
  | .isInteger => pure (.bool (match args with
      | .number x :: _ => Number.isInteger x
      | _ => false))
  | .numberIsNaN => pure (.bool (match args with
      | .number x :: _ => x.isNaN
      | _ => false))
  | .isNaN => Eval.consult fun heap => .bool (Builtin.numberArgument heap args 0).isNaN
  | .string => do
    let text ← Eval.consult fun heap => .string ((args.head?.map fun value =>
      value.text heap).getD "")
    Eval.untested text
  | .bigint => Eval.consultAt loc fun heap => .bigint <$> Builtin.toBigint heap (Builtin.argument args 0)
  | .parseInt => Eval.consult fun heap =>
    let base := ((args[1]?.map fun value => value.toNumber heap).map Builtin.requestedBase).getD 0
    .number (Builtin.parseInt ((Builtin.argument args 0).text heap).toList base)
  | .parseFloat => Eval.consult fun heap =>
    .number (Builtin.parseFloat ((Builtin.argument args 0).text heap).toList)
  | .array => Builtin.makeArray args loc
  | .isArray => pure (.bool (match args with
      | .array _ :: _ => true
      | _ => false))
  | .arrayFrom => Builtin.arrayFrom call args loc
  | .error => Builtin.makeError args
  | .stringify => do
    let text ← Eval.consultAt loc fun heap => Builtin.stringify heap (Builtin.argument args 0)
    Eval.untested text
  | .listing what => Builtin.listing what (Builtin.argument args 0)

open Builtin in
/-- What a method call on a value answers. -/
def Value.callMethod (call : Caller) (receiver : Value) (method : String) (args : List Value)
    (loc : Location) : Eval Value := do
  match receiver with
  | .array place => arrayMethod call place method args loc
  | .string s =>
    if method = "split" then
      let pieces ← Eval.consult fun heap => splitText heap s args
      Eval.newUnchecked pieces.toArray
    else
      let answer ← Eval.consultAt loc fun heap => stringMethod heap s method args
      if changesCase method then Eval.untested answer else pure answer
  | .number x =>
    let text ← Eval.consultAt loc fun heap => numberMethod heap x method args
    Eval.untested text
  | .bigint n =>
    if method = "toString" then Eval.untested (.string (String.ofList (Number.intText n)))
    else call .undefined args method loc
  | .undefined | .null | .bool _ | .object _ | .function _ | .native _ =>
    let f ← Eval.consultAt loc fun heap => receiver.member heap method
    call f args method loc

namespace Native

/-- An object whose fields are functions that the language provides. -/
def fieldsOf (natives : List (String × Native)) : Fields :=
  .ofList (natives.map fun entry => (entry.1, Value.native entry.2))

/-- The fields of `Math`. -/
def mathFields : Fields :=
  ((fieldsOf (MathFunction.all.map fun f => (f.name, .math f))).insert "PI"
    (.number 3.141592653589793)).insert "E" (.number 2.718281828459045)

/-- The fields of `console`. -/
def consoleFields : Fields :=
  fieldsOf (ConsoleFunction.all.map fun f => (f.name, .console f))

/-- The fields of `Object`. -/
def objectFields : Fields :=
  fieldsOf (Listing.all.map fun what => (what.name, .listing what))

/-- The heap with the objects that hold provided functions. -/
def heap : Heap :=
  ⟨#[], #[mathFields, consoleFields, fieldsOf [("stringify", .stringify)], objectFields], #[]⟩

/-- The names that are bound before a program begins, with whether they are constant. -/
def globals : List (String × Value × Bool) :=
  [("Math", .object 0, false), ("console", .object 1, false), ("JSON", .object 2, false),
    ("Object", .object 3, false)] ++
  ([.array, .number, .string, .bigint, .error, .parseInt, .parseFloat, .isNaN].map
    fun (f : Native) => (f.name, .native f, false)) ++
  [("undefined", .undefined, true), ("NaN", .number Number.nan, true),
    ("Infinity", .number Number.infinity, true)]

/-- The environment in which the provided names are bound. -/
def environment : Environment :=
  globals.foldl (fun env (name, value, isConst) => env.declare name value isConst) .initial

end Native

end StepTrace
