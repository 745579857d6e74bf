import StepTrace.Syntax.Token

/-!
# Faults

A fault ends a run. Its cause says what went wrong, with the texts that the message quotes,
and its place is where in the program it went wrong.

* `Cause.kind`: the family that a cause belongs to.
* `Cause.message`: the wording.
* `Fault.report`: the wording with the line.
-/

namespace StepTrace

/-- The families of faults. -/
inductive FaultKind where
  | undefinedVariable
  | constAssignment
  | typeError
  | notAFunction
  | bigintMix
  | bigintDivisionByZero
  | callDepthExceeded
  | rangeError
  | syntaxError
  | thrown
deriving DecidableEq, Repr

/-- What went wrong. -/
inductive Cause where
  /-- A name without a binding. -/
  | unbound (name : String)
  /-- An assignment to a constant. -/
  | constant (name : String)
  /-- A call of something else than a function. -/
  | notFunction (callee : String)
  /-- A callback that is no function. -/
  | notCallback (text : String)
  /-- `new` of something that makes no objects. -/
  | notConstructor (callee : String)
  /-- A property of a value that has none is read. -/
  | readOfNothing (container property : String)
  /-- A property of a value that has none is set. -/
  | writeOfNothing (container property : String)
  /-- A value without elements is gone through. -/
  | notIterable (text : String)
  /-- Unary plus of an integer of unlimited size. -/
  | bigintToNumber
  /-- Numbers of both kinds in one operation. -/
  | mixedNumbers
  | divisionByZero
  /-- A reduction of nothing from nothing. -/
  | emptyReduction
  /-- A value that contains itself has no document. -/
  | circular
  | callDepth
  | arrayLength
  | stringLength
  | bigintSize
  | negativeExponent
  | shiftAmount
  | repeatCount (count : String)
  | fixedDigits
  | radix
  /-- A number that is no integer as an integer. -/
  | fractionalInteger (number : String)
  /-- A value of another kind as an integer. -/
  | notInteger (text : String)
  /-- A text that writes no integer. -/
  | integerText (text : String)
  /-- A literal that writes no integer. -/
  | integerLiteral (digits : String)
  /-- A value that the program raised. -/
  | thrown (message : String)
deriving DecidableEq, Repr

/-- The family of the cause. -/
def Cause.kind : Cause → FaultKind
  | .unbound _ => .undefinedVariable
  | .constant _ => .constAssignment
  | .notFunction _ => .notAFunction
  | .notCallback _ | .notConstructor _ | .readOfNothing _ _ | .writeOfNothing _ _
  | .notIterable _ | .bigintToNumber | .emptyReduction | .circular | .notInteger _ => .typeError
  | .mixedNumbers => .bigintMix
  | .divisionByZero => .bigintDivisionByZero
  | .callDepth => .callDepthExceeded
  | .arrayLength | .stringLength | .bigintSize | .negativeExponent | .shiftAmount
  | .repeatCount _ | .fixedDigits | .radix | .fractionalInteger _ => .rangeError
  | .integerText _ | .integerLiteral _ => .syntaxError
  | .thrown _ => .thrown

/-- What the message says after the name of the error. -/
def Cause.detail : Cause → String
  | .unbound name => name ++ " is not defined"
  | .constant name => "Assignment to constant variable '" ++ name ++ "'"
  | .notFunction callee => callee ++ " is not a function"
  | .notCallback text => text ++ " is not a function"
  | .notConstructor callee => callee ++ " is not a constructor"
  | .readOfNothing container property =>
    "Cannot read properties of " ++ container ++ " (reading '" ++ property ++ "')"
  | .writeOfNothing container property =>
    "Cannot set properties of " ++ container ++ " (setting '" ++ property ++ "')"
  | .notIterable text => text ++ " is not iterable"
  | .bigintToNumber => "Cannot convert a BigInt value to a number"
  | .mixedNumbers => "Cannot mix BigInt and other types, use explicit conversions"
  | .divisionByZero => "Division by zero"
  | .emptyReduction => "Reduce of empty array with no initial value"
  | .circular => "Converting circular structure to JSON"
  | .callDepth => "Maximum call stack size exceeded"
  | .arrayLength => "Invalid array length"
  | .stringLength => "Invalid string length"
  | .bigintSize => "Maximum BigInt size exceeded"
  | .negativeExponent => "Exponent must be non-negative"
  | .shiftAmount => "Invalid shift amount"
  | .repeatCount count => "Invalid count value: " ++ count
  | .fixedDigits => "toFixed() digits argument must be between 0 and 100"
  | .radix => "toString() radix must be between 2 and 36"
  | .fractionalInteger number =>
    "The number " ++ number ++ " cannot be converted to a BigInt because it is not an integer"
  | .notInteger text | .integerText text => "Cannot convert " ++ text ++ " to a BigInt"
  | .integerLiteral digits => "Invalid BigInt literal " ++ digits ++ "n"
  | .thrown message => message

/-- The name that the message of a family begins with; a raised value has none. -/
def FaultKind.heading : FaultKind → String
  | .undefinedVariable => "ReferenceError: "
  | .constAssignment | .typeError | .notAFunction | .bigintMix => "TypeError: "
  | .bigintDivisionByZero | .callDepthExceeded | .rangeError => "RangeError: "
  | .syntaxError => "SyntaxError: "
  | .thrown => ""

/-- The wording. -/
def Cause.message (cause : Cause) : String :=
  cause.kind.heading ++ cause.detail

/-- A cause and where it arose. -/
structure Fault where
  cause : Cause
  loc : Syntax.Location
deriving DecidableEq, Repr

/-- The wording. -/
def Fault.message (fault : Fault) : String :=
  fault.cause.message

/-- The wording with the line, if the place has one. -/
def Fault.report (fault : Fault) : String :=
  if fault.loc.line > 0 then
    fault.message ++ " (line " ++ toString fault.loc.line ++ ")"
  else fault.message

end StepTrace
