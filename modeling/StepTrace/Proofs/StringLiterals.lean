import StepTrace.Syntax.Tree

/-!
# The string literals of a tree

The texts of all string literals of a program in the order in which they stand in it, those in the
bodies of functions among them. The names of fields are no literals, whether or not they are quoted.

* `texts`: the string literals of a program.
-/

namespace StepTrace.Syntax

mutual
/-- The string literals of an expression. -/
def exprTexts : Expr → List String
  | .number _ _ | .bigint _ _ | .bool _ _ | .null _ | .variable _ _ => []
  | .string text _ => [text]
  | .array es _ => elementTexts es
  | .object fs _ => fieldTexts fs
  | .binary _ a b _ => exprTexts a ++ exprTexts b
  | .unary _ a _ => exprTexts a
  | .update _ p _ => placeTexts p
  | .conditional c t f _ => exprTexts c ++ exprTexts t ++ exprTexts f
  | .assign t v _ => targetTexts t ++ exprTexts v
  | .compound _ p v _ => placeTexts p ++ exprTexts v
  | .call f args _ => exprTexts f ++ elementTexts args
  | .construct f args _ => exprTexts f ++ elementTexts args
  | .index a k _ => exprTexts a ++ exprTexts k
  | .member a _ _ => exprTexts a
  | .function f _ => functionTexts f
  | .await a _ => exprTexts a

/-- The string literals of elements. -/
def elementTexts : List Element → List String
  | [] => []
  | .item e :: rest => exprTexts e ++ elementTexts rest
  | .spread e _ :: rest => exprTexts e ++ elementTexts rest

/-- The string literals of the values of fields. -/
def fieldTexts : List (String × Expr) → List String
  | [] => []
  | (_, e) :: rest => exprTexts e ++ fieldTexts rest

/-- The string literals of the expressions in a place. -/
def placeTexts : Place → List String
  | .variable _ _ => []
  | .index a k _ => exprTexts a ++ exprTexts k
  | .member a _ _ => exprTexts a

/-- The string literals of the expressions in places. -/
def placesTexts : List Place → List String
  | [] => []
  | p :: rest => placeTexts p ++ placesTexts rest

/-- The string literals of the expressions in a target. -/
def targetTexts : Target → List String
  | .single p => placeTexts p
  | .list ps _ => placesTexts ps

/-- The string literals of the body of a function. -/
def functionTexts : Function → List String
  | .mk _ _ body _ _ _ => texts body

/-- The string literals of the bindings of a declaration. -/
def declaratorTexts : List Declarator → List String
  | [] => []
  | .mk _ none :: rest => declaratorTexts rest
  | .mk _ (some e) :: rest => exprTexts e ++ declaratorTexts rest

/-- The string literals of the first clause of a loop. -/
def startTexts : ForStart → List String
  | .declare _ ds _ => declaratorTexts ds
  | .expr e _ => exprTexts e

/-- The string literals of an expression that may be missing. -/
def optionalTexts : Option Expr → List String
  | none => []
  | some e => exprTexts e

/-- The string literals of a statement. -/
def stmtTexts : Stmt → List String
  | .function f _ => functionTexts f
  | .declare _ ds _ => declaratorTexts ds
  | .return e _ => optionalTexts e
  | .branch c t none _ => exprTexts c ++ texts t
  | .branch c t (some f) _ => exprTexts c ++ texts t ++ texts f
  | .while c body _ => exprTexts c ++ texts body
  | .doWhile body c _ => texts body ++ exprTexts c
  | .for none c i body _ => optionalTexts c ++ optionalTexts i ++ texts body
  | .for (some s) c i body _ =>
    startTexts s ++ optionalTexts c ++ optionalTexts i ++ texts body
  | .forOf _ _ e body _ => exprTexts e ++ texts body
  | .break _ => []
  | .continue _ => []
  | .throw e _ => exprTexts e
  | .block body _ => texts body
  | .expr e _ => exprTexts e
  | .capture _ => []

/-- The string literals of statements. -/
def texts : List Stmt → List String
  | [] => []
  | stmt :: rest => stmtTexts stmt ++ texts rest
end

theorem functionTexts_eq (f : Function) : functionTexts f = texts f.body := by
  cases f with | mk => rfl

end StepTrace.Syntax
