import StepTrace.Number.Reading
import StepTrace.Text.Search
import StepTrace.Text.Quoted
import StepTrace.Value.Heap

/-!
# Values as text and as numbers

The text of an array is the texts of its elements with commas between them. An array that
is met again inside itself has the empty text there, so the text is always finite. The
number of an array with one element is the number of that element.

The recursions follow references and so are bounded by the number of containers: a way
through the heap that is longer meets a container twice.
-/

namespace StepTrace.Value

/-- The text of a function written in the program. -/
def closureText (heap : Heap) (place : Nat) : String :=
  let name := (heap.functions[place]?).getD none
  "function " ++ name.getD "" ++ "() \x7b [code] \x7d"

/-- The text of a value inside the arrays `inside`, following references at most `depth`
levels deep. -/
def textWithin (heap : Heap) : Nat → List Nat → Value → String
  | 0, _, .array _ => ""
  | depth + 1, inside, .array place =>
    if inside.contains place then ""
    else
      let parts := (heap.items place).toList.map fun item =>
        if item.isNullish then "" else textWithin heap depth (place :: inside) item
      ",".intercalate parts
  | _, _, .undefined => "undefined"
  | _, _, .null => "null"
  | _, _, .bool b => if b then "true" else "false"
  | _, _, .number x => Number.scriptText x
  | _, _, .bigint n => String.ofList (Number.intText n)
  | _, _, .string s => s
  | _, _, .object _ => "[object Object]"
  | _, _, .function place => closureText heap place
  | _, _, .native f => "function " ++ f.name ++ "() \x7b [native code] \x7d"

/-- The text that a value converts to. -/
def text (heap : Heap) (value : Value) : String :=
  textWithin heap (heap.arrays.size + 1) [] value

/-- The number that a value converts to, following references at most `depth` levels
deep. -/
def toNumberWithin (heap : Heap) : Nat → Value → Float
  | 0, .array _ => Number.nan
  | depth + 1, .array place =>
    match heap.items place with
    | #[] => 0
    | #[item] => toNumberWithin heap depth item
    | _ => Number.nan
  | _, .undefined => Number.nan
  | _, .null => 0
  | _, .bool b => if b then 1 else 0
  | _, .number x => x
  | _, .bigint n => Number.ofInt n
  | _, .string s => Number.ofText s.toList
  | _, .object _ | _, .function _ | _, .native _ => Number.nan

/-- The number that a value converts to. -/
def toNumber (heap : Heap) (value : Value) : Float :=
  match value with
  | .number x => x
  | value => toNumberWithin heap (heap.arrays.size + 1) value

/-- The text of a value in diagnostics: strings are quoted, and of a container only the
size is told. -/
def inspect (heap : Heap) : Value → String
  | .string s => Text.quoted s
  | .bigint n => String.ofList (Number.intText n) ++ "n"
  | .array place => "Array(" ++ toString (heap.items place).size ++ ")"
  | .object place => "Object(" ++ toString (heap.fields place).size ++ " keys)"
  | value => value.text heap

end StepTrace.Value
