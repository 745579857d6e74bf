import StepTrace.Syntax.Tree

/-!
# The names that a program calls

A call whose callee is a name calls that name, wherever the call stands: in the clauses of a loop,
in an argument of another call or in the body of a function. The names are listed in the order in
which their calls are read.

* `calls`: the names that a program calls.
-/

namespace StepTrace.Syntax

/-- The name that a call of the expression calls. -/
def Expr.calledName : Expr → List String
  | .variable x _ => [x]
  | _ => []

mutual
/-- The names that an expression calls. -/
def exprCalls : Expr → List String
  | .number _ _ | .bigint _ _ | .string _ _ | .bool _ _ | .null _ | .variable _ _ => []
  | .array es _ => elementCalls es
  | .object fs _ => fieldCalls fs
  | .binary _ a b _ => exprCalls a ++ exprCalls b
  | .unary _ a _ => exprCalls a
  | .update _ p _ => placeCalls p
  | .conditional c t f _ => exprCalls c ++ exprCalls t ++ exprCalls f
  | .assign t v _ => targetCalls t ++ exprCalls v
  | .compound _ p v _ => placeCalls p ++ exprCalls v
  | .call f args _ => exprCalls f ++ elementCalls args ++ f.calledName
  | .construct f args _ => exprCalls f ++ elementCalls args
  | .index a k _ => exprCalls a ++ exprCalls k
  | .member a _ _ => exprCalls a
  | .function f _ => functionCalls f
  | .await a _ => exprCalls a

/-- The names that elements call. -/
def elementCalls : List Element → List String
  | [] => []
  | .item e :: rest => exprCalls e ++ elementCalls rest
  | .spread e _ :: rest => exprCalls e ++ elementCalls rest

/-- The names that the values of fields call. -/
def fieldCalls : List (String × Expr) → List String
  | [] => []
  | (_, e) :: rest => exprCalls e ++ fieldCalls rest

/-- The names that the expressions in a place call. -/
def placeCalls : Place → List String
  | .variable _ _ => []
  | .index a k _ => exprCalls a ++ exprCalls k
  | .member a _ _ => exprCalls a

/-- The names that the expressions in places call. -/
def placesCalls : List Place → List String
  | [] => []
  | p :: rest => placeCalls p ++ placesCalls rest

/-- The names that the expressions in a target call. -/
def targetCalls : Target → List String
  | .single p => placeCalls p
  | .list ps _ => placesCalls ps

/-- The names that the body of a function calls. -/
def functionCalls : Function → List String
  | .mk _ _ body _ _ _ => calls body

/-- The names that the bindings of a declaration call. -/
def declaratorCalls : List Declarator → List String
  | [] => []
  | .mk _ none :: rest => declaratorCalls rest
  | .mk _ (some e) :: rest => exprCalls e ++ declaratorCalls rest

/-- The names that the first clause of a loop calls. -/
def startCalls : ForStart → List String
  | .declare _ ds _ => declaratorCalls ds
  | .expr e _ => exprCalls e

/-- The names that an expression calls that may be missing. -/
def optionalCalls : Option Expr → List String
  | none => []
  | some e => exprCalls e

/-- The names that a statement calls. -/
def stmtCalls : Stmt → List String
  | .function f _ => functionCalls f
  | .declare _ ds _ => declaratorCalls ds
  | .return e _ => optionalCalls e
  | .branch c t none _ => exprCalls c ++ calls t
  | .branch c t (some f) _ => exprCalls c ++ calls t ++ calls f
  | .while c body _ => exprCalls c ++ calls body
  | .doWhile body c _ => calls body ++ exprCalls c
  | .for none c i body _ => optionalCalls c ++ optionalCalls i ++ calls body
  | .for (some s) c i body _ =>
    startCalls s ++ optionalCalls c ++ optionalCalls i ++ calls body
  | .forOf _ _ e body _ => exprCalls e ++ calls body
  | .break _ => []
  | .continue _ => []
  | .throw e _ => exprCalls e
  | .block body _ => calls body
  | .expr e _ => exprCalls e
  | .capture _ => []

/-- The names that a program calls. -/
def calls : List Stmt → List String
  | [] => []
  | stmt :: rest => stmtCalls stmt ++ calls rest
end

/-- A place calls what the expression calls as which it is written. -/
theorem place?_calls {e : Expr} {p : Place} (h : e.place? = some p) :
    placeCalls p = exprCalls e := by
  rw [← Expr.expr_of_place? h]
  cases p <;> rfl

theorem placesCalls_eq (ps : List Place) :
    placesCalls ps = elementCalls (ps.map (.item ·.expr)) := by
  induction ps with
  | nil => rfl
  | cons p rest ih =>
      rw [List.map_cons, elementCalls, placesCalls, place?_calls p.place?_expr, ih]

/-- A target calls what the expression calls as which it is written. -/
theorem target?_calls {e : Expr} {t : Target} (h : e.target? = some t) :
    targetCalls t = exprCalls e := by
  rw [← Expr.expr_of_target? h]
  cases t with
  | single p => exact place?_calls p.place?_expr
  | list ps l => exact placesCalls_eq ps

end StepTrace.Syntax
