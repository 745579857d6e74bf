import StepTrace.Eval.Fault

/-!
# Limits

How large a program may make an array, a string and an integer, and how deep its calls may
nest. A larger request is a fault and allocates nothing.
-/

namespace StepTrace.Limit

/-- The greatest number of elements of an array. -/
def arrayLength : Nat := 1 <<< 24

/-- The greatest number of bytes of a string. -/
def stringLength : Nat := 1 <<< 28

/-- The greatest number of binary digits of an integer. -/
def bigintBits : Nat := 1 <<< 24

/-- The greatest number of calls under way. -/
def callDepth : Nat := 2000

/-- The greatest integer up to which every integer is a double. -/
def safeInteger : Nat := 1 <<< 53 - 1

/-- Admits the length of an array. -/
def checkArray (length : Nat) : Except Cause Unit :=
  if length > arrayLength then .error .arrayLength else .ok ()

/-- Admits the number of bytes of a string. -/
def checkString (bytes : Nat) : Except Cause Unit :=
  if bytes > stringLength then .error .stringLength else .ok ()

/-- Admits the number of binary digits of an integer. -/
def checkBits (bits : Nat) : Except Cause Unit :=
  if bits > bigintBits then .error .bigintSize else .ok ()

end StepTrace.Limit
