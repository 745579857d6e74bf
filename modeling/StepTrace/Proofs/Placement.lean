import StepTrace.Capture.Placement
import StepTrace.Proofs.BoundNames

/-!
# What placing captures leaves alone

Placing captures changes nothing of a program but the lists of statements: callees keep
their description, the first clause of a loop its names, simple statements their lines, and
a program binds the same names as before (`boundNames_placeStmts`). A map without executable
lines places no capture at all (`placeStmts_empty`), so a tree that is left as it is can be
treated as one with captures placed by that map.
-/

namespace StepTrace.Capture

open Syntax

/-! ## Maps without executable lines -/

theorem captureBehind_empty (suspending : Bool) (stmt : Stmt) :
    captureBehind #[] suspending stmt = [] := by
  unfold captureBehind
  cases stmt.simpleLine? <;> simp [isExecutable]

mutual
theorem placeExpr_empty : ∀ e : Expr, placeExpr #[] e = e
  | .number _ _ | .bigint _ _ | .string _ _ | .bool _ _ | .null _ | .variable _ _ => rfl
  | .array es _ => by rw [placeExpr, placeElements_empty es]
  | .object fs _ => by rw [placeExpr, placeFields_empty fs]
  | .binary _ a b _ => by rw [placeExpr, placeExpr_empty a, placeExpr_empty b]
  | .unary _ a _ => by rw [placeExpr, placeExpr_empty a]
  | .update _ p _ => by rw [placeExpr, placePlace_empty p]
  | .conditional c t f _ => by
      rw [placeExpr, placeExpr_empty c, placeExpr_empty t, placeExpr_empty f]
  | .assign t v _ => by rw [placeExpr, placeTarget_empty t, placeExpr_empty v]
  | .compound _ p v _ => by rw [placeExpr, placePlace_empty p, placeExpr_empty v]
  | .call f args _ => by rw [placeExpr, placeExpr_empty f, placeElements_empty args]
  | .construct f args _ => by rw [placeExpr, placeExpr_empty f, placeElements_empty args]
  | .index a k _ => by rw [placeExpr, placeExpr_empty a, placeExpr_empty k]
  | .member a _ _ => by rw [placeExpr, placeExpr_empty a]
  | .function f _ => by rw [placeExpr, placeFunction_empty f]
  | .await a _ => by rw [placeExpr, placeExpr_empty a]

theorem placeElements_empty : ∀ es : List Element, placeElements #[] es = es
  | [] => rfl
  | .item e :: rest => by rw [placeElements, placeExpr_empty e, placeElements_empty rest]
  | .spread e _ :: rest => by rw [placeElements, placeExpr_empty e, placeElements_empty rest]

theorem placeFields_empty : ∀ fs : List (String × Expr), placeFields #[] fs = fs
  | [] => rfl
  | (_, e) :: rest => by rw [placeFields, placeExpr_empty e, placeFields_empty rest]

theorem placePlace_empty : ∀ p : Place, placePlace #[] p = p
  | .variable _ _ => rfl
  | .index a k _ => by rw [placePlace, placeExpr_empty a, placeExpr_empty k]
  | .member a _ _ => by rw [placePlace, placeExpr_empty a]

theorem placePlaces_empty : ∀ ps : List Place, placePlaces #[] ps = ps
  | [] => rfl
  | p :: rest => by rw [placePlaces, placePlace_empty p, placePlaces_empty rest]

theorem placeTarget_empty : ∀ t : Target, placeTarget #[] t = t
  | .single p => by rw [placeTarget, placePlace_empty p]
  | .list ps _ => by rw [placeTarget, placePlaces_empty ps]

theorem placeFunction_empty : ∀ f : Function, placeFunction #[] f = f
  | .mk _ _ body _ _ _ => by rw [placeFunction, placeStmts_empty _ body]

theorem placeDeclarators_empty : ∀ ds : List Declarator, placeDeclarators #[] ds = ds
  | [] => rfl
  | .mk _ none :: rest => by rw [placeDeclarators, placeDeclarators_empty rest]
  | .mk _ (some e) :: rest => by
      rw [placeDeclarators, placeExpr_empty e, placeDeclarators_empty rest]

theorem placeStart_empty : ∀ start : ForStart, placeStart #[] start = start
  | .declare _ ds _ => by rw [placeStart, placeDeclarators_empty ds]
  | .expr e _ => by rw [placeStart, placeExpr_empty e]

theorem placeStmt_empty (suspending : Bool) : ∀ stmt : Stmt,
    placeStmt #[] suspending stmt = stmt
  | .function f _ => by rw [placeStmt, placeFunction_empty f]
  | .declare _ ds _ => by rw [placeStmt, placeDeclarators_empty ds]
  | .return none _ => rfl
  | .return (some e) _ => by rw [placeStmt, placeExpr_empty e]
  | .branch c t none _ => by rw [placeStmt, placeExpr_empty c, placeStmts_empty _ t]
  | .branch c t (some f) _ => by
      rw [placeStmt, placeExpr_empty c, placeStmts_empty _ t, placeStmts_empty _ f]
  | .while c body _ => by rw [placeStmt, placeExpr_empty c, placeStmts_empty _ body]
  | .doWhile body c _ => by rw [placeStmt, placeStmts_empty _ body, placeExpr_empty c]
  | .for none _ _ body _ => by rw [placeStmt, placeStmts_empty _ body]
  | .for (some start) _ _ body _ => by
      rw [placeStmt, placeStart_empty start, placeStmts_empty _ body]
  | .forOf _ _ e body _ => by rw [placeStmt, placeExpr_empty e, placeStmts_empty _ body]
  | .break _ => rfl
  | .continue _ => rfl
  | .throw e _ => by rw [placeStmt, placeExpr_empty e]
  | .block body _ => by rw [placeStmt, placeStmts_empty _ body]
  | .expr e _ => by rw [placeStmt, placeExpr_empty e]
  | .capture _ => rfl

theorem placeStmts_empty (suspending : Bool) : ∀ stmts : List Stmt,
    placeStmts #[] suspending stmts = stmts
  | [] => rfl
  | stmt :: rest => by
      rw [placeStmts, placeStmt_empty _ stmt, captureBehind_empty, List.nil_append,
        placeStmts_empty _ rest]
end

/-! ## What is seen of a tree from outside -/

variable (map : Array LineKind)

@[simp]
theorem describe_placeExpr : ∀ e : Expr, describe (placeExpr map e) = describe e
  | .variable _ _ => rfl
  | .member container _ _ => by
      rw [placeExpr, describe, describe, describe_placeExpr container]
  | .index container _ _ => by
      rw [placeExpr, describe, describe, describe_placeExpr container]
  | .call callee _ _ => by rw [placeExpr, describe, describe, describe_placeExpr callee]
  | .number _ _ | .bigint _ _ | .string _ _ | .bool _ _ | .null _ | .array _ _ | .object _ _
  | .binary _ _ _ _ | .unary _ _ _ | .update _ _ _ | .conditional _ _ _ _ | .assign _ _ _
  | .compound _ _ _ _ | .construct _ _ _ | .function _ _ | .await _ _ => rfl

theorem length_placePlaces (ps : List Place) : (placePlaces map ps).length = ps.length := by
  induction ps with
  | nil => rfl
  | cons p rest ih => simp [placePlaces, ih]

theorem boundNames_placeDeclarators (ds : List Declarator) :
    (placeDeclarators map ds).flatMap Declarator.names = ds.flatMap Declarator.names := by
  induction ds with
  | nil => rfl
  | cons d rest ih =>
      obtain ⟨target, value⟩ := d
      cases value <;> simp [placeDeclarators, Declarator.names, ih]

theorem roundNames_placeStart (start : ForStart) :
    ForStart.roundNames (some (placeStart map start)) = ForStart.roundNames (some start) := by
  cases start with
  | declare kind ds l =>
      cases kind <;> simp [placeStart, ForStart.roundNames, boundNames_placeDeclarators]
  | expr e l => rfl

theorem boundNames_captureBehind (suspending : Bool) (stmt : Stmt) :
    boundNames (captureBehind map suspending stmt) = [] := by
  unfold captureBehind
  split
  · split <;> rfl
  · rfl

theorem boundNames_append (first second : List Stmt) :
    boundNames (first ++ second) = boundNames first ++ boundNames second := by
  induction first with
  | nil => rfl
  | cons stmt rest ih => rw [List.cons_append, boundNames, boundNames, ih, List.append_assoc]

mutual
theorem exprNames_placeExpr : ∀ e : Expr, exprNames (placeExpr map e) = exprNames e
  | .number _ _ | .bigint _ _ | .string _ _ | .bool _ _ | .null _ | .variable _ _ => rfl
  | .array es _ => elementNames_placeElements es
  | .object fs _ => fieldNames_placeFields fs
  | .binary _ a b _ => by
      rw [placeExpr, exprNames, exprNames_placeExpr a, exprNames_placeExpr b, exprNames]
  | .unary _ a _ => exprNames_placeExpr a
  | .update _ p _ => placeNames_placePlace p
  | .conditional c t f _ => by
      rw [placeExpr, exprNames, exprNames_placeExpr c, exprNames_placeExpr t,
        exprNames_placeExpr f, exprNames]
  | .assign t v _ => by
      rw [placeExpr, exprNames, targetNames_placeTarget t, exprNames_placeExpr v, exprNames]
  | .compound _ p v _ => by
      rw [placeExpr, exprNames, placeNames_placePlace p, exprNames_placeExpr v, exprNames]
  | .call f args _ => by
      rw [placeExpr, exprNames, exprNames_placeExpr f, elementNames_placeElements args, exprNames]
  | .construct f args _ => by
      rw [placeExpr, exprNames, exprNames_placeExpr f, elementNames_placeElements args, exprNames]
  | .index a k _ => by
      rw [placeExpr, exprNames, exprNames_placeExpr a, exprNames_placeExpr k, exprNames]
  | .member a _ _ => exprNames_placeExpr a
  | .function f _ => functionNames_placeFunction f
  | .await a _ => exprNames_placeExpr a

theorem elementNames_placeElements : ∀ es : List Element,
    elementNames (placeElements map es) = elementNames es
  | [] => rfl
  | .item e :: rest => by
      rw [placeElements, elementNames, exprNames_placeExpr e, elementNames_placeElements rest,
        elementNames]
  | .spread e _ :: rest => by
      rw [placeElements, elementNames, exprNames_placeExpr e, elementNames_placeElements rest,
        elementNames]

theorem fieldNames_placeFields : ∀ fs : List (String × Expr),
    fieldNames (placeFields map fs) = fieldNames fs
  | [] => rfl
  | (_, e) :: rest => by
      rw [placeFields, fieldNames, exprNames_placeExpr e, fieldNames_placeFields rest, fieldNames]

theorem placeNames_placePlace : ∀ p : Place, placeNames (placePlace map p) = placeNames p
  | .variable _ _ => rfl
  | .index a k _ => by
      rw [placePlace, placeNames, exprNames_placeExpr a, exprNames_placeExpr k, placeNames]
  | .member a _ _ => exprNames_placeExpr a

theorem placesNames_placePlaces : ∀ ps : List Place,
    placesNames (placePlaces map ps) = placesNames ps
  | [] => rfl
  | p :: rest => by
      rw [placePlaces, placesNames, placeNames_placePlace p, placesNames_placePlaces rest,
        placesNames]

theorem targetNames_placeTarget : ∀ t : Target, targetNames (placeTarget map t) = targetNames t
  | .single p => placeNames_placePlace p
  | .list ps _ => placesNames_placePlaces ps

theorem functionNames_placeFunction : ∀ f : Function,
    functionNames (placeFunction map f) = functionNames f
  | .mk _ params body _ _ _ => by
      rw [placeFunction, functionNames, boundNames_placeStmts _ body, functionNames]

theorem declaratorNames_placeDeclarators : ∀ ds : List Declarator,
    declaratorNames (placeDeclarators map ds) = declaratorNames ds
  | [] => rfl
  | .mk _ none :: rest => by
      rw [placeDeclarators, declaratorNames, declaratorNames_placeDeclarators rest,
        declaratorNames]
  | .mk _ (some e) :: rest => by
      rw [placeDeclarators, declaratorNames, exprNames_placeExpr e,
        declaratorNames_placeDeclarators rest, declaratorNames]

theorem startNames_placeStart : ∀ start : ForStart,
    startNames (placeStart map start) = startNames start
  | .declare _ ds _ => declaratorNames_placeDeclarators ds
  | .expr e _ => exprNames_placeExpr e

theorem stmtNames_placeStmt (suspending : Bool) : ∀ stmt : Stmt,
    stmtNames (placeStmt map suspending stmt) = stmtNames stmt
  | .function (.mk _ _ _ _ _ _) _ => by
      rw [placeStmt, stmtNames, functionNames_placeFunction, stmtNames, placeFunction]
      rfl
  | .declare _ ds _ => declaratorNames_placeDeclarators ds
  | .return none _ => rfl
  | .return (some e) _ => exprNames_placeExpr e
  | .branch c t none _ => by
      rw [placeStmt, stmtNames, exprNames_placeExpr c, boundNames_placeStmts _ t, stmtNames]
  | .branch c t (some f) _ => by
      rw [placeStmt, stmtNames, exprNames_placeExpr c, boundNames_placeStmts _ t,
        boundNames_placeStmts _ f, stmtNames]
  | .while c body _ => by
      rw [placeStmt, stmtNames, exprNames_placeExpr c, boundNames_placeStmts _ body, stmtNames]
  | .doWhile body c _ => by
      rw [placeStmt, stmtNames, boundNames_placeStmts _ body, exprNames_placeExpr c, stmtNames]
  | .for none _ _ body _ => by
      rw [placeStmt, stmtNames, boundNames_placeStmts _ body, stmtNames]
  | .for (some start) _ _ body _ => by
      rw [placeStmt, stmtNames, startNames_placeStart start, boundNames_placeStmts _ body,
        stmtNames]
  | .forOf _ _ e body _ => by
      rw [placeStmt, stmtNames, exprNames_placeExpr e, boundNames_placeStmts _ body, stmtNames]
  | .break _ => rfl
  | .continue _ => rfl
  | .throw e _ => exprNames_placeExpr e
  | .block body _ => boundNames_placeStmts _ body
  | .expr e _ => exprNames_placeExpr e
  | .capture _ => rfl

theorem boundNames_placeStmts (suspending : Bool) : ∀ stmts : List Stmt,
    boundNames (placeStmts map suspending stmts) = boundNames stmts
  | [] => rfl
  | stmt :: rest => by
      rw [placeStmts, boundNames, boundNames_append, boundNames_captureBehind, List.nil_append,
        stmtNames_placeStmt _ stmt, boundNames_placeStmts _ rest, boundNames]
end

theorem functionCaptures_eq (f : Function) : functionCaptures f = captures f.body := by
  cases f with | mk => rfl

@[simp]
theorem name_placeFunction (f : Function) : (placeFunction map f).name = f.name := by
  cases f with | mk => rfl

@[simp]
theorem params_placeFunction (f : Function) : (placeFunction map f).params = f.params := by
  cases f with | mk => rfl

@[simp]
theorem body_placeFunction (f : Function) :
    (placeFunction map f).body = placeStmts map f.isAsync f.body := by
  cases f with | mk => rfl

variable (suspending : Bool)

@[simp]
theorem simpleLine?_placeStmt (stmt : Stmt) :
    (placeStmt map suspending stmt).simpleLine? = stmt.simpleLine? := by
  fun_cases placeStmt map suspending stmt <;> rfl

theorem placeStmt_ne_function {stmt : Stmt} (h : ∀ f l, stmt ≠ .function f l) :
    ∀ f l, placeStmt map suspending stmt ≠ .function f l := by
  fun_cases placeStmt map suspending stmt with
  | case1 f l => exact absurd rfl (h f l)
  | _ => simp

theorem startsWithCapture_placeStmts (stmts : List Stmt) :
    startsWithCapture (placeStmts map suspending stmts) = startsWithCapture stmts := by
  cases stmts with
  | nil => rfl
  | cons stmt rest =>
      rw [placeStmts]
      fun_cases placeStmt map suspending stmt <;> rfl

theorem startsWithCapture_of_captures {stmts : List Stmt} (h : captures stmts = []) :
    startsWithCapture stmts = false := by
  cases stmts with
  | nil => rfl
  | cons stmt rest =>
      cases stmt with
      | capture line => simp [captures, stmtCaptures] at h
      | _ => rfl

theorem captureBehind_of_executable {stmt : Stmt} {line : Nat}
    (hline : stmt.simpleLine? = some line) (hexec : isExecutable map line = true) :
    captureBehind map true stmt = [.capture line] := by
  unfold captureBehind
  rw [hline]
  exact if_pos hexec

/-- A capture is placed behind simple statements only, where captures may stand, and on the
line on which the statement starts. -/
theorem captureBehind_eq (stmt : Stmt) :
    captureBehind map suspending stmt = [] ∨
      ∃ line, stmt.simpleLine? = some line ∧ suspending = true ∧ isExecutable map line = true ∧
        captureBehind map suspending stmt = [.capture line] := by
  unfold captureBehind
  cases stmt.simpleLine? with
  | none => exact Or.inl rfl
  | some line =>
      by_cases h : suspending && isExecutable map line
      · simp only [Bool.and_eq_true] at h
        exact Or.inr ⟨line, rfl, h.1, h.2, by simp [h.1, h.2]⟩
      · exact Or.inl (by simp [h])

end StepTrace.Capture
