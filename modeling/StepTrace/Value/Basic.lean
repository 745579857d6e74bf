import StepTrace.Number.Binary

/-!
# Values

A running program computes with values. Arrays, objects and functions are references: the
value holds the place in the heap where the contents lie, so copying a value never copies
contents, and two references are the same exactly when their places are.

* `Value.typeName`: the answer of the `typeof` operator.
* `Value.isTruthy`: how a condition reads a value.
* `Native.name`: the qualified name of a function that the language provides.
-/

namespace StepTrace

/-- The functions of one number or of several that `Math` holds. -/
inductive MathFunction where
  | abs | floor | ceil | round | trunc | sign | sqrt | cbrt | pow | max | min
  | log | log2 | log10
deriving DecidableEq, Repr

/-- The functions of `console`, which take anything and have no effect. -/
inductive ConsoleFunction where
  | log | info | warn | error | debug
deriving DecidableEq, Repr

/-- What a listing of an object's fields lists. -/
inductive Listing where
  | keys | values | entries
deriving DecidableEq, Repr

/-- A function that the language provides. -/
inductive Native where
  | console (function : ConsoleFunction)
  | math (function : MathFunction)
  | stringify
  | listing (what : Listing)
  | array
  | arrayFrom
  | isArray
  | number
  | isInteger
  | numberIsNaN
  | isNaN
  | string
  | bigint
  | error
  | parseInt
  | parseFloat
deriving DecidableEq, Repr

/-- The name under which `Math` holds the function. -/
def MathFunction.name : MathFunction → String
  | .abs => "abs"
  | .floor => "floor"
  | .ceil => "ceil"
  | .round => "round"
  | .trunc => "trunc"
  | .sign => "sign"
  | .sqrt => "sqrt"
  | .cbrt => "cbrt"
  | .pow => "pow"
  | .max => "max"
  | .min => "min"
  | .log => "log"
  | .log2 => "log2"
  | .log10 => "log10"

/-- All functions of `Math`. -/
def MathFunction.all : List MathFunction :=
  [.abs, .floor, .ceil, .round, .trunc, .sign, .sqrt, .cbrt, .pow, .max, .min, .log, .log2,
    .log10]

/-- The name under which `console` holds the function. -/
def ConsoleFunction.name : ConsoleFunction → String
  | .log => "log"
  | .info => "info"
  | .warn => "warn"
  | .error => "error"
  | .debug => "debug"

/-- All functions of `console`. -/
def ConsoleFunction.all : List ConsoleFunction :=
  [.log, .info, .warn, .error, .debug]

/-- The name under which `Object` holds the listing. -/
def Listing.name : Listing → String
  | .keys => "keys"
  | .values => "values"
  | .entries => "entries"

/-- All listings. -/
def Listing.all : List Listing :=
  [.keys, .values, .entries]

/-- The name of the function with the name of the object that holds it. -/
def Native.name : Native → String
  | .console f => "console." ++ f.name
  | .math f => "Math." ++ f.name
  | .stringify => "JSON.stringify"
  | .listing what => "Object." ++ what.name
  | .array => "Array"
  | .arrayFrom => "Array.from"
  | .isArray => "Array.isArray"
  | .number => "Number"
  | .isInteger => "Number.isInteger"
  | .numberIsNaN => "Number.isNaN"
  | .isNaN => "isNaN"
  | .string => "String"
  | .bigint => "BigInt"
  | .error => "Error"
  | .parseInt => "parseInt"
  | .parseFloat => "parseFloat"

/-- Whether `new` may be applied to the function. -/
def Native.isConstructor : Native → Bool
  | .array | .error => true
  | _ => false

/-- A value. -/
inductive Value where
  | undefined
  | null
  | bool (value : Bool)
  | number (value : Float)
  | bigint (value : Int)
  | string (text : String)
  | array (place : Nat)
  | object (place : Nat)
  | function (place : Nat)
  | native (function : Native)
deriving Inhabited

namespace Value

/-- The word that `typeof` answers. -/
def typeName : Value → String
  | .undefined => "undefined"
  | .null | .array _ | .object _ => "object"
  | .bool _ => "boolean"
  | .number _ => "number"
  | .bigint _ => "bigint"
  | .string _ => "string"
  | .function _ | .native _ => "function"

/-- Whether the value can be called. -/
def isFunction : Value → Bool
  | .function _ | .native _ => true
  | _ => false

/-- Whether the value is `undefined`. -/
def isUndefined : Value → Bool
  | .undefined => true
  | _ => false

/-- Whether the value is one of the two values that have no properties. -/
def isNullish : Value → Bool
  | .undefined | .null => true
  | _ => false

/-- Whether a condition takes the value for true. -/
def isTruthy : Value → Bool
  | .undefined | .null => false
  | .bool b => b
  | .number x => ! (x == 0 || x.isNaN)
  | .bigint n => n ≠ 0
  | .string s => ! s.isEmpty
  | _ => true

/-- The value of a text of one character. -/
def ofChar (c : Char) : Value :=
  .string c.toString

/-- The value of a count. -/
def ofCount (n : Nat) : Value :=
  .number (Number.ofNat n)

end Value

end StepTrace
