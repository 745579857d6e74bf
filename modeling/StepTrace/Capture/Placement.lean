import StepTrace.Capture.Candidates
import StepTrace.Capture.LineMap
import StepTrace.Syntax.Parser

/-!
# Placing captures

A capture is placed behind every simple statement, that is a declaration or an expression
statement, which starts on an executable line at top level or directly in a function that
can be suspended. Functions are visited wherever an expression has one, except in the
condition and in the step of a `for` loop.

* `Instrumented` is a program with its captures and `instrument` makes one from a text.
* `captureLines` lists the lines of the captures in a tree.
-/

namespace StepTrace.Capture

open Syntax

/-- The capture behind a statement: there is one if it is simple, stands where captures may
stand and starts on an executable line. -/
def captureBehind (map : Array LineKind) (suspending : Bool) (stmt : Stmt) : List Stmt :=
  match stmt.simpleLine? with
  | some line => if suspending && isExecutable map line then [.capture line] else []
  | none => []

mutual
/-- The expression with captures in its functions. -/
def placeExpr (map : Array LineKind) : Expr → Expr
  | .number x l => .number x l
  | .bigint d l => .bigint d l
  | .string s l => .string s l
  | .bool b l => .bool b l
  | .null l => .null l
  | .variable x l => .variable x l
  | .array es l => .array (placeElements map es) l
  | .object fs l => .object (placeFields map fs) l
  | .binary op a b l => .binary op (placeExpr map a) (placeExpr map b) l
  | .unary op a l => .unary op (placeExpr map a) l
  | .update op p l => .update op (placePlace map p) l
  | .conditional c t f l => .conditional (placeExpr map c) (placeExpr map t) (placeExpr map f) l
  | .assign t v l => .assign (placeTarget map t) (placeExpr map v) l
  | .compound op p v l => .compound op (placePlace map p) (placeExpr map v) l
  | .call f args l => .call (placeExpr map f) (placeElements map args) l
  | .construct f args l => .construct (placeExpr map f) (placeElements map args) l
  | .index a k l => .index (placeExpr map a) (placeExpr map k) l
  | .member a x l => .member (placeExpr map a) x l
  | .function f l => .function (placeFunction map f) l
  | .await a l => .await (placeExpr map a) l

/-- The elements with captures in their functions. -/
def placeElements (map : Array LineKind) : List Element → List Element
  | [] => []
  | .item e :: rest => .item (placeExpr map e) :: placeElements map rest
  | .spread e l :: rest => .spread (placeExpr map e) l :: placeElements map rest

/-- The fields with captures in their functions. -/
def placeFields (map : Array LineKind) : List (String × Expr) → List (String × Expr)
  | [] => []
  | (x, e) :: rest => (x, placeExpr map e) :: placeFields map rest

/-- The place with captures in its functions. -/
def placePlace (map : Array LineKind) : Place → Place
  | .variable x l => .variable x l
  | .index a k l => .index (placeExpr map a) (placeExpr map k) l
  | .member a x l => .member (placeExpr map a) x l

/-- The places with captures in their functions. -/
def placePlaces (map : Array LineKind) : List Place → List Place
  | [] => []
  | p :: rest => placePlace map p :: placePlaces map rest

/-- The target with captures in its functions. -/
def placeTarget (map : Array LineKind) : Target → Target
  | .single p => .single (placePlace map p)
  | .list ps l => .list (placePlaces map ps) l

/-- The function with captures in its body. -/
def placeFunction (map : Array LineKind) : Function → Function
  | .mk x ps body isAsync isArrow braces =>
    .mk x ps (placeStmts map isAsync body) isAsync isArrow braces

/-- The bindings with captures in their functions. -/
def placeDeclarators (map : Array LineKind) : List Declarator → List Declarator
  | [] => []
  | .mk b none :: rest => .mk b none :: placeDeclarators map rest
  | .mk b (some e) :: rest => .mk b (some (placeExpr map e)) :: placeDeclarators map rest

/-- The first clause of a loop with captures in its functions. -/
def placeStart (map : Array LineKind) : ForStart → ForStart
  | .declare k ds l => .declare k (placeDeclarators map ds) l
  | .expr e l => .expr (placeExpr map e) l

/-- The statement with captures inside it. -/
def placeStmt (map : Array LineKind) (suspending : Bool) : Stmt → Stmt
  | .function f l => .function (placeFunction map f) l
  | .declare k ds l => .declare k (placeDeclarators map ds) l
  | .return none l => .return none l
  | .return (some e) l => .return (some (placeExpr map e)) l
  | .branch c t none l => .branch (placeExpr map c) (placeStmts map suspending t) none l
  | .branch c t (some f) l =>
    .branch (placeExpr map c) (placeStmts map suspending t)
      (some (placeStmts map suspending f)) l
  | .while c body l => .while (placeExpr map c) (placeStmts map suspending body) l
  | .doWhile body c l => .doWhile (placeStmts map suspending body) (placeExpr map c) l
  | .for none c i body l => .for none c i (placeStmts map suspending body) l
  | .for (some s) c i body l =>
    .for (some (placeStart map s)) c i (placeStmts map suspending body) l
  | .forOf k b e body l => .forOf k b (placeExpr map e) (placeStmts map suspending body) l
  | .break l => .break l
  | .continue l => .continue l
  | .throw e l => .throw (placeExpr map e) l
  | .block body l => .block (placeStmts map suspending body) l
  | .expr e l => .expr (placeExpr map e) l
  | .capture n => .capture n

/-- The statements with captures inside and behind them. -/
def placeStmts (map : Array LineKind) (suspending : Bool) : List Stmt → List Stmt
  | [] => []
  | stmt :: rest =>
    placeStmt map suspending stmt ::
      (captureBehind map suspending stmt ++ placeStmts map suspending rest)
end

/-! ## The captures of a tree -/

mutual
/-- The lines of the captures in an expression. -/
def exprCaptures : Expr → List Nat
  | .number _ _ | .bigint _ _ | .string _ _ | .bool _ _ | .null _ | .variable _ _ => []
  | .array es _ => elementCaptures es
  | .object fs _ => fieldCaptures fs
  | .binary _ a b _ => exprCaptures a ++ exprCaptures b
  | .unary _ a _ => exprCaptures a
  | .update _ p _ => placeCaptures p
  | .conditional c t f _ => exprCaptures c ++ exprCaptures t ++ exprCaptures f
  | .assign t v _ => targetCaptures t ++ exprCaptures v
  | .compound _ p v _ => placeCaptures p ++ exprCaptures v
  | .call f args _ => exprCaptures f ++ elementCaptures args
  | .construct f args _ => exprCaptures f ++ elementCaptures args
  | .index a k _ => exprCaptures a ++ exprCaptures k
  | .member a _ _ => exprCaptures a
  | .function f _ => functionCaptures f
  | .await a _ => exprCaptures a

/-- The lines of the captures in elements. -/
def elementCaptures : List Element → List Nat
  | [] => []
  | .item e :: rest => exprCaptures e ++ elementCaptures rest
  | .spread e _ :: rest => exprCaptures e ++ elementCaptures rest

/-- The lines of the captures in fields. -/
def fieldCaptures : List (String × Expr) → List Nat
  | [] => []
  | (_, e) :: rest => exprCaptures e ++ fieldCaptures rest

/-- The lines of the captures in a place. -/
def placeCaptures : Place → List Nat
  | .variable _ _ => []
  | .index a k _ => exprCaptures a ++ exprCaptures k
  | .member a _ _ => exprCaptures a

/-- The lines of the captures in places. -/
def placesCaptures : List Place → List Nat
  | [] => []
  | p :: rest => placeCaptures p ++ placesCaptures rest

/-- The lines of the captures in a target. -/
def targetCaptures : Target → List Nat
  | .single p => placeCaptures p
  | .list ps _ => placesCaptures ps

/-- The lines of the captures in a function. -/
def functionCaptures : Function → List Nat
  | .mk _ _ body _ _ _ => captures body

/-- The lines of the captures in bindings. -/
def declaratorCaptures : List Declarator → List Nat
  | [] => []
  | .mk _ none :: rest => declaratorCaptures rest
  | .mk _ (some e) :: rest => exprCaptures e ++ declaratorCaptures rest

/-- The lines of the captures in the first clause of a loop. -/
def startCaptures : ForStart → List Nat
  | .declare _ ds _ => declaratorCaptures ds
  | .expr e _ => exprCaptures e

/-- The lines of the captures in an expression that may be missing. -/
def optionalCaptures : Option Expr → List Nat
  | none => []
  | some e => exprCaptures e

/-- The lines of the captures in a statement. -/
def stmtCaptures : Stmt → List Nat
  | .function f _ => functionCaptures f
  | .declare _ ds _ => declaratorCaptures ds
  | .return e _ => optionalCaptures e
  | .branch c t none _ => exprCaptures c ++ captures t
  | .branch c t (some f) _ => exprCaptures c ++ captures t ++ captures f
  | .while c body _ => exprCaptures c ++ captures body
  | .doWhile body c _ => captures body ++ exprCaptures c
  | .for none c i body _ => optionalCaptures c ++ optionalCaptures i ++ captures body
  | .for (some s) c i body _ =>
    startCaptures s ++ optionalCaptures c ++ optionalCaptures i ++ captures body
  | .forOf _ _ e body _ => exprCaptures e ++ captures body
  | .break _ => []
  | .continue _ => []
  | .throw e _ => exprCaptures e
  | .block body _ => captures body
  | .expr e _ => exprCaptures e
  | .capture n => [n]

/-- The lines of the captures in statements. -/
def captures : List Stmt → List Nat
  | [] => []
  | stmt :: rest => stmtCaptures stmt ++ captures rest
end

/-! ## Instrumented programs -/

/-- A program with its captures. -/
structure Instrumented where
  source : String
  program : Program
  candidates : List String

/-- The lines behind which a capture stands, in order, each once. -/
def Instrumented.captureLines (i : Instrumented) : List Nat :=
  ((captures i.program).mergeSort fun a b => a ≤ b).eraseReps

/-- The program of a host text with its captures, for the given candidates. -/
def instrumentWith (source : String) (names : List String) :
    Except SyntaxError Instrumented := do
  let program ← parse source
  let map := (lineMap source).toArray
  return ⟨source, placeStmts map true program, names⟩

/-- The program of a host text with its captures. -/
def instrument (source : String) : Except SyntaxError Instrumented :=
  instrumentWith source (candidates source)

/-- What is said about a host text that is no program. -/
def faultMessage (e : SyntaxError) : String :=
  "SyntaxError: " ++ e.message

/-- The line that stands for a capture in a listing. -/
def Instrumented.marker (i : Instrumented) (number : Nat) (line : List Char) : String :=
  let indent := String.ofList (line.takeWhile Text.isBlank)
  let names := ", ".intercalate (i.candidates.map fun x => "\"" ++ x ++ "\"")
  indent ++ "await __step(" ++ toString number ++ ", __scope([" ++ names ++ "]));\n"

/-- The host text with a line for the capture behind every line that has one. -/
def Instrumented.render (i : Instrumented) : String :=
  let marked := i.captureLines
  let parts := (Text.lines i.source.toList).mapIdx fun k line =>
    String.ofList line ++ "\n" ++
      (if marked.contains (k + 1) then i.marker (k + 1) line else "")
  String.join parts

end StepTrace.Capture
