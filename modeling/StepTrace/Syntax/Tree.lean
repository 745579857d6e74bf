import StepTrace.Syntax.Token

/-!
# Syntax trees

Expressions, statements and functions of the host language. The forms that only some
positions allow have types of their own: a spread stands only among elements, the left side
of an assignment is a target, and the first clause of a `for` loop is no statement.

* `Place.expr`, `Target.expr`: the expression as which a target was written.
* `Expr.place?`, `Expr.target?`: the target that an expression can be read as.
-/

namespace StepTrace.Syntax

/-- The word that introduces a declaration. -/
inductive DeclKind where
  | letDecl
  | constDecl
  | varDecl
deriving DecidableEq, Repr

/-- The word itself. -/
def DeclKind.text : DeclKind → String
  | .letDecl => "let"
  | .constDecl => "const"
  | .varDecl => "var"

/-- Operators that decide by their left operand whether the right one is evaluated. -/
inductive LogicalOp where
  | and
  | or
  | nullish
deriving DecidableEq, Repr

/-- Operators that evaluate both operands. -/
inductive StrictOp where
  | add | sub | mul | div | mod | pow
  | equal | notEqual | strictEqual | strictNotEqual
  | less | lessEqual | greater | greaterEqual
  | bitAnd | bitOr | bitXor | shiftLeft | shiftRight
deriving DecidableEq, Repr

/-- Operators between two operands. -/
inductive BinaryOp where
  | logical (op : LogicalOp)
  | strict (op : StrictOp)
deriving DecidableEq, Repr

/-- How the operator is written. -/
def LogicalOp.text : LogicalOp → String
  | .and => "&&"
  | .or => "||"
  | .nullish => "??"

/-- How the operator is written. -/
def StrictOp.text : StrictOp → String
  | .add => "+"
  | .sub => "-"
  | .mul => "*"
  | .div => "/"
  | .mod => "%"
  | .pow => "**"
  | .equal => "=="
  | .notEqual => "!="
  | .strictEqual => "==="
  | .strictNotEqual => "!=="
  | .less => "<"
  | .lessEqual => "<="
  | .greater => ">"
  | .greaterEqual => ">="
  | .bitAnd => "&"
  | .bitOr => "|"
  | .bitXor => "^"
  | .shiftLeft => "<<"
  | .shiftRight => ">>"

/-- How the operator is written. -/
def BinaryOp.text : BinaryOp → String
  | .logical op => op.text
  | .strict op => op.text

/-- Operators before one operand. -/
inductive UnaryOp where
  | negate
  | plus
  | not
  | bitNot
  | typeof
deriving DecidableEq, Repr

/-- How the operator is written. -/
def UnaryOp.text : UnaryOp → String
  | .negate => "-"
  | .plus => "+"
  | .not => "!"
  | .bitNot => "~"
  | .typeof => "typeof"

/-- The four ways to step a variable by one; the result is the new value when the operator
stands before the operand and the old one when it stands behind it. -/
inductive UpdateOp where
  | incrementBefore
  | decrementBefore
  | incrementAfter
  | decrementAfter
deriving DecidableEq, Repr

/-- What a declaration binds: one name, or the elements of a list to several names. -/
inductive Binder where
  | name (name : String)
  | list (names : List String)
deriving DecidableEq, Repr

/-- The names that are bound. -/
def Binder.names : Binder → List String
  | .name x => [x]
  | .list xs => xs

mutual
/-- An expression. -/
inductive Expr where
  | number (value : Float) (loc : Location)
  | bigint (digits : String) (loc : Location)
  | string (text : String) (loc : Location)
  | bool (value : Bool) (loc : Location)
  | null (loc : Location)
  | variable (name : String) (loc : Location)
  | array (elements : List Element) (loc : Location)
  | object (fields : List (String × Expr)) (loc : Location)
  | binary (op : BinaryOp) (left right : Expr) (loc : Location)
  | unary (op : UnaryOp) (operand : Expr) (loc : Location)
  | update (op : UpdateOp) (place : Place) (loc : Location)
  | conditional (condition whenTrue whenFalse : Expr) (loc : Location)
  | assign (target : Target) (value : Expr) (loc : Location)
  | compound (op : StrictOp) (place : Place) (value : Expr) (loc : Location)
  | call (callee : Expr) (args : List Element) (loc : Location)
  | construct (callee : Expr) (args : List Element) (loc : Location)
  | index (container key : Expr) (loc : Location)
  | member (container : Expr) (name : String) (loc : Location)
  | function (function : Function) (loc : Location)
  | await (operand : Expr) (loc : Location)

/-- An element of an array literal or an argument list. -/
inductive Element where
  | item (expr : Expr)
  | spread (expr : Expr) (loc : Location)

/-- Something that can be assigned to. -/
inductive Place where
  | variable (name : String) (loc : Location)
  | index (container key : Expr) (loc : Location)
  | member (container : Expr) (name : String) (loc : Location)

/-- The left side of an assignment. -/
inductive Target where
  | single (place : Place)
  | list (places : List Place) (loc : Location)

/-- A function: its name if it has one, its parameters and its body. The braces are the
places of the opening and the closing brace of the body, if the body is a block. -/
inductive Function where
  | mk (name : Option String) (params : List String) (body : List Stmt) (isAsync : Bool)
    (isArrow : Bool) (braces : Option (Location × Location))

/-- One binding of a declaration. -/
inductive Declarator where
  | mk (target : Binder) (value : Option Expr)

/-- The first clause of a `for` loop. -/
inductive ForStart where
  | declare (kind : DeclKind) (declarators : List Declarator) (loc : Location)
  | expr (expr : Expr) (loc : Location)

/-- A statement. A capture is no part of any written program. -/
inductive Stmt where
  | function (function : Function) (loc : Location)
  | declare (kind : DeclKind) (declarators : List Declarator) (loc : Location)
  | return (value : Option Expr) (loc : Location)
  | branch (condition : Expr) (whenTrue : List Stmt) (whenFalse : Option (List Stmt))
    (loc : Location)
  | while (condition : Expr) (body : List Stmt) (loc : Location)
  | doWhile (body : List Stmt) (condition : Expr) (loc : Location)
  | for (start : Option ForStart) (condition : Option Expr) (step : Option Expr)
    (body : List Stmt) (loc : Location)
  | forOf (kind : DeclKind) (target : Binder) (iterable : Expr) (body : List Stmt)
    (loc : Location)
  | break (loc : Location)
  | continue (loc : Location)
  | throw (value : Expr) (loc : Location)
  | block (body : List Stmt) (loc : Location)
  | expr (expr : Expr) (loc : Location)
  | capture (line : Nat)
end

/-- The statements of a program. -/
abbrev Program := List Stmt

/-- The names that a declarator binds. -/
def Declarator.names : Declarator → List String
  | .mk target _ => target.names

/-- The line on which a simple statement, which is a declaration or an expression statement,
starts. -/
def Stmt.simpleLine? : Stmt → Option Nat
  | .declare _ _ l | .expr _ l => some l.line
  | _ => none

/-- Whether the first statement is a capture. -/
def startsWithCapture : List Stmt → Bool
  | .capture _ :: _ => true
  | _ => false

namespace Function

/-- The name of the function. -/
def name : Function → Option String
  | .mk name _ _ _ _ _ => name

/-- The names of the parameters. -/
def params : Function → List String
  | .mk _ params _ _ _ _ => params

/-- The statements of the body. -/
def body : Function → List Stmt
  | .mk _ _ body _ _ _ => body

/-- Whether the function was declared with `async`. -/
def isAsync : Function → Bool
  | .mk _ _ _ isAsync _ _ => isAsync

/-- Whether the function was written with an arrow. -/
def isArrow : Function → Bool
  | .mk _ _ _ _ isArrow _ => isArrow

/-- The places of the braces of the body. -/
def braces : Function → Option (Location × Location)
  | .mk _ _ _ _ _ braces => braces

end Function

/-- Where the expression stands. -/
def Expr.loc : Expr → Location
  | .number _ l | .bigint _ l | .string _ l | .bool _ l | .null l | .variable _ l
  | .array _ l | .object _ l | .binary _ _ _ l | .unary _ _ l | .update _ _ l
  | .conditional _ _ _ l | .assign _ _ l | .compound _ _ _ l | .call _ _ l
  | .construct _ _ l | .index _ _ l | .member _ _ l | .function _ l | .await _ l => l

/-- The expression as which the place is written. -/
def Place.expr : Place → Expr
  | .variable name l => .variable name l
  | .index container key l => .index container key l
  | .member container name l => .member container name l

/-- The expression as which the target is written. -/
def Target.expr : Target → Expr
  | .single place => place.expr
  | .list places l => .array (places.map fun p => .item p.expr) l

/-- The place that the expression can be read as. -/
def Expr.place? : Expr → Option Place
  | .variable name l => some (.variable name l)
  | .index container key l => some (.index container key l)
  | .member container name l => some (.member container name l)
  | _ => none

/-- The place that the element can be read as. -/
def Element.place? : Element → Option Place
  | .item e => e.place?
  | .spread _ _ => none

/-- The target that the expression can be read as. -/
def Expr.target? : Expr → Option Target
  | .array elements l => (elements.mapM Element.place?).map (.list · l)
  | e => e.place?.map .single

theorem Expr.expr_of_place? {e : Expr} {p : Place} (h : e.place? = some p) : p.expr = e := by
  cases e <;> simp [Expr.place?] at h <;> subst h <;> rfl

theorem Place.place?_expr (p : Place) : p.expr.place? = some p := by
  cases p <;> rfl

/-- Elements that can be read as places are the expressions as which the places are written. -/
theorem Element.map_expr_of_places {es : List Element} {ps : List Place}
    (h : es.mapM Element.place? = some ps) : ps.map (.item ·.expr) = es := by
  induction es generalizing ps with
  | nil =>
      cases h
      rfl
  | cons e rest ih =>
      rw [List.mapM_cons] at h
      obtain ⟨p, hp, qs, hqs, rfl⟩ : ∃ p, e.place? = some p ∧
          ∃ qs, rest.mapM Element.place? = some qs ∧ p :: qs = ps := by
        simpa [Option.bind_eq_some_iff] using h
      rw [List.map_cons, ih hqs]
      cases e with
      | item e => rw [Expr.expr_of_place? hp]
      | spread e l => cases hp

theorem Expr.expr_of_target? {e : Expr} {t : Target} (h : e.target? = some t) : t.expr = e := by
  unfold Expr.target? at h
  split at h
  · obtain ⟨ps, hps, rfl⟩ := Option.map_eq_some_iff.mp h
    rw [Target.expr, Element.map_expr_of_places hps]
  · obtain ⟨p, hp, rfl⟩ := Option.map_eq_some_iff.mp h
    exact Expr.expr_of_place? hp

end StepTrace.Syntax
