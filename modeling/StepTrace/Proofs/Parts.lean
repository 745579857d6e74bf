import StepTrace.Syntax.Tree

/-!
# The functions and the large integers of a tree

Two things in a tree are known from the tokens alone: its functions, by the braces of their
bodies, and the digits of its large integers. Both are listed here in the order in which their
last tokens stand in the text, so a function comes behind the parts of its body.

* `Part`: a function or the digits of a large integer.
* `parts`: the parts of a program, and `functions` those that are functions.
-/

namespace StepTrace.Syntax

/-- A part of a tree that its tokens tell of. -/
inductive Part where
  | function (function : Function)
  | bigint (digits : String)

mutual
/-- The parts of an expression. -/
def exprParts : Expr → List Part
  | .number _ _ | .string _ _ | .bool _ _ | .null _ | .variable _ _ => []
  | .bigint digits _ => [.bigint digits]
  | .array es _ => elementParts es
  | .object fs _ => fieldParts fs
  | .binary _ a b _ => exprParts a ++ exprParts b
  | .unary _ a _ => exprParts a
  | .update _ p _ => placeParts p
  | .conditional c t f _ => exprParts c ++ exprParts t ++ exprParts f
  | .assign t v _ => targetParts t ++ exprParts v
  | .compound _ p v _ => placeParts p ++ exprParts v
  | .call f args _ => exprParts f ++ elementParts args
  | .construct f args _ => exprParts f ++ elementParts args
  | .index a k _ => exprParts a ++ exprParts k
  | .member a _ _ => exprParts a
  | .function f _ => functionParts f
  | .await a _ => exprParts a

/-- The parts of elements. -/
def elementParts : List Element → List Part
  | [] => []
  | .item e :: rest => exprParts e ++ elementParts rest
  | .spread e _ :: rest => exprParts e ++ elementParts rest

/-- The parts of the values of fields. -/
def fieldParts : List (String × Expr) → List Part
  | [] => []
  | (_, e) :: rest => exprParts e ++ fieldParts rest

/-- The parts of the expressions in a place. -/
def placeParts : Place → List Part
  | .variable _ _ => []
  | .index a k _ => exprParts a ++ exprParts k
  | .member a _ _ => exprParts a

/-- The parts of the expressions in places. -/
def placesParts : List Place → List Part
  | [] => []
  | p :: rest => placeParts p ++ placesParts rest

/-- The parts of the expressions in a target. -/
def targetParts : Target → List Part
  | .single p => placeParts p
  | .list ps _ => placesParts ps

/-- The parts of the body of a function and the function itself. -/
def functionParts : Function → List Part
  | .mk x params body isAsync isArrow braces =>
    parts body ++ [.function (.mk x params body isAsync isArrow braces)]

/-- The parts of the bindings of a declaration. -/
def declaratorParts : List Declarator → List Part
  | [] => []
  | .mk _ none :: rest => declaratorParts rest
  | .mk _ (some e) :: rest => exprParts e ++ declaratorParts rest

/-- The parts of the first clause of a loop. -/
def startParts : ForStart → List Part
  | .declare _ ds _ => declaratorParts ds
  | .expr e _ => exprParts e

/-- The parts of an expression that may be missing. -/
def optionalParts : Option Expr → List Part
  | none => []
  | some e => exprParts e

/-- The parts of a statement. -/
def stmtParts : Stmt → List Part
  | .function f _ => functionParts f
  | .declare _ ds _ => declaratorParts ds
  | .return e _ => optionalParts e
  | .branch c t none _ => exprParts c ++ parts t
  | .branch c t (some f) _ => exprParts c ++ parts t ++ parts f
  | .while c body _ => exprParts c ++ parts body
  | .doWhile body c _ => parts body ++ exprParts c
  | .for none c i body _ => optionalParts c ++ optionalParts i ++ parts body
  | .for (some s) c i body _ =>
    startParts s ++ optionalParts c ++ optionalParts i ++ parts body
  | .forOf _ _ e body _ => exprParts e ++ parts body
  | .break _ => []
  | .continue _ => []
  | .throw e _ => exprParts e
  | .block body _ => parts body
  | .expr e _ => exprParts e
  | .capture _ => []

/-- The parts of statements. -/
def parts : List Stmt → List Part
  | [] => []
  | stmt :: rest => stmtParts stmt ++ parts rest
end

/-- The functions of a program. -/
def functions (program : Program) : List Function :=
  (parts program).filterMap fun
    | .function f => some f
    | .bigint _ => none

theorem mem_functions {program : Program} {f : Function} :
    f ∈ functions program ↔ Part.function f ∈ parts program := by
  rw [functions, List.mem_filterMap]
  constructor
  · rintro ⟨part, hpart, hf⟩
    cases part with
    | function g =>
        cases hf
        exact hpart
    | bigint digits => cases hf
  · intro hf
    exact ⟨.function f, hf, rfl⟩

theorem functionParts_eq (f : Function) : functionParts f = parts f.body ++ [.function f] := by
  cases f with | mk => rfl

/-- A place has the parts of the expression as which it is written. -/
theorem place?_parts {e : Expr} {p : Place} (h : e.place? = some p) :
    placeParts p = exprParts e := by
  rw [← Expr.expr_of_place? h]
  cases p <;> rfl

theorem placesParts_eq (ps : List Place) :
    placesParts ps = elementParts (ps.map (.item ·.expr)) := by
  induction ps with
  | nil => rfl
  | cons p rest ih =>
      rw [List.map_cons, elementParts, placesParts, place?_parts p.place?_expr, ih]

/-- A target has the parts of the expression as which it is written. -/
theorem target?_parts {e : Expr} {t : Target} (h : e.target? = some t) :
    targetParts t = exprParts e := by
  rw [← Expr.expr_of_target? h]
  cases t with
  | single p => exact place?_parts p.place?_expr
  | list ps l => exact placesParts_eq ps

end StepTrace.Syntax
