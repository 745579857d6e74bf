import StepTrace.Proofs.Placement

/-!
# Erasing captures

Placing captures adds captures to a program and does nothing else to it: if they are deleted
again, at any depth, the program is as it was (`erase_placeStmts`).

* `eraseStmts`: the statements without the captures among and inside them.
-/

namespace StepTrace.Capture

open Syntax

mutual
/-- The expression without captures in its functions. -/
def eraseExpr : Expr → Expr
  | .number x l => .number x l
  | .bigint d l => .bigint d l
  | .string s l => .string s l
  | .bool b l => .bool b l
  | .null l => .null l
  | .variable x l => .variable x l
  | .array es l => .array (eraseElements es) l
  | .object fs l => .object (eraseFields fs) l
  | .binary op a b l => .binary op (eraseExpr a) (eraseExpr b) l
  | .unary op a l => .unary op (eraseExpr a) l
  | .update op p l => .update op (erasePlace p) l
  | .conditional c t f l => .conditional (eraseExpr c) (eraseExpr t) (eraseExpr f) l
  | .assign t v l => .assign (eraseTarget t) (eraseExpr v) l
  | .compound op p v l => .compound op (erasePlace p) (eraseExpr v) l
  | .call f args l => .call (eraseExpr f) (eraseElements args) l
  | .construct f args l => .construct (eraseExpr f) (eraseElements args) l
  | .index a k l => .index (eraseExpr a) (eraseExpr k) l
  | .member a x l => .member (eraseExpr a) x l
  | .function f l => .function (eraseFunction f) l
  | .await a l => .await (eraseExpr a) l

/-- The elements without captures. -/
def eraseElements : List Element → List Element
  | [] => []
  | .item e :: rest => .item (eraseExpr e) :: eraseElements rest
  | .spread e l :: rest => .spread (eraseExpr e) l :: eraseElements rest

/-- The fields without captures. -/
def eraseFields : List (String × Expr) → List (String × Expr)
  | [] => []
  | (x, e) :: rest => (x, eraseExpr e) :: eraseFields rest

/-- The place without captures. -/
def erasePlace : Place → Place
  | .variable x l => .variable x l
  | .index a k l => .index (eraseExpr a) (eraseExpr k) l
  | .member a x l => .member (eraseExpr a) x l

/-- The places without captures. -/
def erasePlaces : List Place → List Place
  | [] => []
  | p :: rest => erasePlace p :: erasePlaces rest

/-- The target without captures. -/
def eraseTarget : Target → Target
  | .single p => .single (erasePlace p)
  | .list ps l => .list (erasePlaces ps) l

/-- The function without captures in its body. -/
def eraseFunction : Function → Function
  | .mk x ps body isAsync isArrow braces => .mk x ps (eraseStmts body) isAsync isArrow braces

/-- The bindings without captures. -/
def eraseDeclarators : List Declarator → List Declarator
  | [] => []
  | .mk b none :: rest => .mk b none :: eraseDeclarators rest
  | .mk b (some e) :: rest => .mk b (some (eraseExpr e)) :: eraseDeclarators rest

/-- The first clause of a loop without captures. -/
def eraseStart : ForStart → ForStart
  | .declare k ds l => .declare k (eraseDeclarators ds) l
  | .expr e l => .expr (eraseExpr e) l

/-- The expression that may be missing without captures. -/
def eraseOptional : Option Expr → Option Expr
  | none => none
  | some e => some (eraseExpr e)

/-- The statement without captures inside it. -/
def eraseStmt : Stmt → Stmt
  | .function f l => .function (eraseFunction f) l
  | .declare k ds l => .declare k (eraseDeclarators ds) l
  | .return e l => .return (eraseOptional e) l
  | .branch c t none l => .branch (eraseExpr c) (eraseStmts t) none l
  | .branch c t (some f) l => .branch (eraseExpr c) (eraseStmts t) (some (eraseStmts f)) l
  | .while c body l => .while (eraseExpr c) (eraseStmts body) l
  | .doWhile body c l => .doWhile (eraseStmts body) (eraseExpr c) l
  | .for none c i body l => .for none (eraseOptional c) (eraseOptional i) (eraseStmts body) l
  | .for (some s) c i body l =>
    .for (some (eraseStart s)) (eraseOptional c) (eraseOptional i) (eraseStmts body) l
  | .forOf k b e body l => .forOf k b (eraseExpr e) (eraseStmts body) l
  | .break l => .break l
  | .continue l => .continue l
  | .throw e l => .throw (eraseExpr e) l
  | .block body l => .block (eraseStmts body) l
  | .expr e l => .expr (eraseExpr e) l
  | .capture n => .capture n

/-- The statements without the captures among and inside them. -/
def eraseStmts : List Stmt → List Stmt
  | [] => []
  | .capture _ :: rest => eraseStmts rest
  | stmt :: rest => eraseStmt stmt :: eraseStmts rest
end

theorem eraseStmts_captureBehind (map : Array LineKind) (suspending : Bool) (stmt : Stmt)
    (rest : List Stmt) :
    eraseStmts (captureBehind map suspending stmt ++ rest) = eraseStmts rest := by
  unfold captureBehind
  split
  · split
    · rw [List.singleton_append, eraseStmts]
    · rfl
  · rfl

theorem eraseStmts_cons {stmt : Stmt} (h : ∀ line, stmt ≠ .capture line) (rest : List Stmt) :
    eraseStmts (stmt :: rest) = eraseStmt stmt :: eraseStmts rest := by
  cases stmt with
  | capture line => exact absurd rfl (h line)
  | _ => rw [eraseStmts]; simp

theorem placeStmt_ne_capture (map : Array LineKind) (suspending : Bool) {stmt : Stmt}
    (h : ∀ line, stmt ≠ .capture line) (line : Nat) :
    placeStmt map suspending stmt ≠ .capture line := by
  fun_cases placeStmt map suspending stmt with
  | case17 n => exact absurd rfl (h n)
  | _ => simp

mutual
theorem erase_placeExpr : ∀ (map : Array LineKind) (e : Expr), exprCaptures e = [] →
    eraseExpr (placeExpr map e) = e
  | _, .number _ _, _ | _, .bigint _ _, _ | _, .string _ _, _ | _, .bool _ _, _ | _, .null _, _
  | _, .variable _ _, _ => rfl
  | map, .array es _, h => by rw [placeExpr, eraseExpr, erase_placeElements map es h]
  | map, .object fs _, h => by rw [placeExpr, eraseExpr, erase_placeFields map fs h]
  | map, .binary _ a b _, h => by
      obtain ⟨ha, hb⟩ := List.append_eq_nil_iff.mp h
      rw [placeExpr, eraseExpr, erase_placeExpr map a ha, erase_placeExpr map b hb]
  | map, .unary _ a _, h => by rw [placeExpr, eraseExpr, erase_placeExpr map a h]
  | map, .update _ p _, h => by rw [placeExpr, eraseExpr, erase_placePlace map p h]
  | map, .conditional c t f _, h => by
      obtain ⟨hct, hf⟩ := List.append_eq_nil_iff.mp h
      obtain ⟨hc, ht⟩ := List.append_eq_nil_iff.mp hct
      rw [placeExpr, eraseExpr, erase_placeExpr map c hc, erase_placeExpr map t ht,
        erase_placeExpr map f hf]
  | map, .assign t v _, h => by
      obtain ⟨ht, hv⟩ := List.append_eq_nil_iff.mp h
      rw [placeExpr, eraseExpr, erase_placeTarget map t ht, erase_placeExpr map v hv]
  | map, .compound _ p v _, h => by
      obtain ⟨hp, hv⟩ := List.append_eq_nil_iff.mp h
      rw [placeExpr, eraseExpr, erase_placePlace map p hp, erase_placeExpr map v hv]
  | map, .call f args _, h => by
      obtain ⟨hf, hargs⟩ := List.append_eq_nil_iff.mp h
      rw [placeExpr, eraseExpr, erase_placeExpr map f hf, erase_placeElements map args hargs]
  | map, .construct f args _, h => by
      obtain ⟨hf, hargs⟩ := List.append_eq_nil_iff.mp h
      rw [placeExpr, eraseExpr, erase_placeExpr map f hf, erase_placeElements map args hargs]
  | map, .index a k _, h => by
      obtain ⟨ha, hk⟩ := List.append_eq_nil_iff.mp h
      rw [placeExpr, eraseExpr, erase_placeExpr map a ha, erase_placeExpr map k hk]
  | map, .member a _ _, h => by rw [placeExpr, eraseExpr, erase_placeExpr map a h]
  | map, .function f _, h => by rw [placeExpr, eraseExpr, erase_placeFunction map f h]
  | map, .await a _, h => by rw [placeExpr, eraseExpr, erase_placeExpr map a h]

theorem erase_placeElements : ∀ (map : Array LineKind) (es : List Element),
    elementCaptures es = [] → eraseElements (placeElements map es) = es
  | _, [], _ => rfl
  | map, .item e :: rest, h => by
      obtain ⟨he, hrest⟩ := List.append_eq_nil_iff.mp h
      rw [placeElements, eraseElements, erase_placeExpr map e he,
        erase_placeElements map rest hrest]
  | map, .spread e _ :: rest, h => by
      obtain ⟨he, hrest⟩ := List.append_eq_nil_iff.mp h
      rw [placeElements, eraseElements, erase_placeExpr map e he,
        erase_placeElements map rest hrest]

theorem erase_placeFields : ∀ (map : Array LineKind) (fs : List (String × Expr)),
    fieldCaptures fs = [] → eraseFields (placeFields map fs) = fs
  | _, [], _ => rfl
  | map, (_, e) :: rest, h => by
      obtain ⟨he, hrest⟩ := List.append_eq_nil_iff.mp h
      rw [placeFields, eraseFields, erase_placeExpr map e he, erase_placeFields map rest hrest]

theorem erase_placePlace : ∀ (map : Array LineKind) (p : Place), placeCaptures p = [] →
    erasePlace (placePlace map p) = p
  | _, .variable _ _, _ => rfl
  | map, .index a k _, h => by
      obtain ⟨ha, hk⟩ := List.append_eq_nil_iff.mp h
      rw [placePlace, erasePlace, erase_placeExpr map a ha, erase_placeExpr map k hk]
  | map, .member a _ _, h => by rw [placePlace, erasePlace, erase_placeExpr map a h]

theorem erase_placePlaces : ∀ (map : Array LineKind) (ps : List Place), placesCaptures ps = [] →
    erasePlaces (placePlaces map ps) = ps
  | _, [], _ => rfl
  | map, p :: rest, h => by
      obtain ⟨hp, hrest⟩ := List.append_eq_nil_iff.mp h
      rw [placePlaces, erasePlaces, erase_placePlace map p hp, erase_placePlaces map rest hrest]

theorem erase_placeTarget : ∀ (map : Array LineKind) (t : Target), targetCaptures t = [] →
    eraseTarget (placeTarget map t) = t
  | map, .single p, h => by rw [placeTarget, eraseTarget, erase_placePlace map p h]
  | map, .list ps _, h => by rw [placeTarget, eraseTarget, erase_placePlaces map ps h]

theorem erase_placeFunction : ∀ (map : Array LineKind) (f : Function), functionCaptures f = [] →
    eraseFunction (placeFunction map f) = f
  | map, .mk _ _ body isAsync _ _, h => by
      rw [placeFunction, eraseFunction, erase_placeStmts map isAsync body h]

theorem erase_placeDeclarators : ∀ (map : Array LineKind) (ds : List Declarator),
    declaratorCaptures ds = [] → eraseDeclarators (placeDeclarators map ds) = ds
  | _, [], _ => rfl
  | map, .mk _ none :: rest, h => by
      rw [placeDeclarators, eraseDeclarators, erase_placeDeclarators map rest h]
  | map, .mk _ (some e) :: rest, h => by
      obtain ⟨he, hrest⟩ := List.append_eq_nil_iff.mp h
      rw [placeDeclarators, eraseDeclarators, erase_placeExpr map e he,
        erase_placeDeclarators map rest hrest]

theorem erase_placeStart : ∀ (map : Array LineKind) (start : ForStart), startCaptures start = [] →
    eraseStart (placeStart map start) = start
  | map, .declare _ ds _, h => by rw [placeStart, eraseStart, erase_placeDeclarators map ds h]
  | map, .expr e _, h => by rw [placeStart, eraseStart, erase_placeExpr map e h]

/-- An expression in which nothing is placed is erased as one with the empty map. -/
theorem eraseOptional_eq : ∀ e : Option Expr, optionalCaptures e = [] → eraseOptional e = e
  | none, _ => rfl
  | some e, h => by
      have hplaced := erase_placeExpr #[] e h
      rw [placeExpr_empty] at hplaced
      rw [eraseOptional, hplaced]

theorem erase_placeStmt : ∀ (map : Array LineKind) (suspending : Bool) (stmt : Stmt),
    stmtCaptures stmt = [] → eraseStmt (placeStmt map suspending stmt) = stmt
  | map, _, .function f _, h => by rw [placeStmt, eraseStmt, erase_placeFunction map f h]
  | map, _, .declare _ ds _, h => by rw [placeStmt, eraseStmt, erase_placeDeclarators map ds h]
  | _, _, .return none _, _ => rfl
  | map, _, .return (some e) _, h => by
      rw [placeStmt, eraseStmt, eraseOptional, erase_placeExpr map e h]
  | map, suspending, .branch c t none _, h => by
      obtain ⟨hc, ht⟩ := List.append_eq_nil_iff.mp h
      rw [placeStmt, eraseStmt, erase_placeExpr map c hc, erase_placeStmts map suspending t ht]
  | map, suspending, .branch c t (some f) _, h => by
      obtain ⟨hct, hf⟩ := List.append_eq_nil_iff.mp h
      obtain ⟨hc, ht⟩ := List.append_eq_nil_iff.mp hct
      rw [placeStmt, eraseStmt, erase_placeExpr map c hc, erase_placeStmts map suspending t ht,
        erase_placeStmts map suspending f hf]
  | map, suspending, .while c body _, h => by
      obtain ⟨hc, hbody⟩ := List.append_eq_nil_iff.mp h
      rw [placeStmt, eraseStmt, erase_placeExpr map c hc,
        erase_placeStmts map suspending body hbody]
  | map, suspending, .doWhile body c _, h => by
      obtain ⟨hbody, hc⟩ := List.append_eq_nil_iff.mp h
      rw [placeStmt, eraseStmt, erase_placeStmts map suspending body hbody,
        erase_placeExpr map c hc]
  | map, suspending, .for none c i body _, h => by
      obtain ⟨hclauses, hbody⟩ := List.append_eq_nil_iff.mp h
      obtain ⟨hc, hi⟩ := List.append_eq_nil_iff.mp hclauses
      rw [placeStmt, eraseStmt, eraseOptional_eq c hc, eraseOptional_eq i hi,
        erase_placeStmts map suspending body hbody]
  | map, suspending, .for (some start) c i body _, h => by
      obtain ⟨hclauses, hbody⟩ := List.append_eq_nil_iff.mp h
      obtain ⟨hsc, hi⟩ := List.append_eq_nil_iff.mp hclauses
      obtain ⟨hstart, hc⟩ := List.append_eq_nil_iff.mp hsc
      rw [placeStmt, eraseStmt, erase_placeStart map start hstart, eraseOptional_eq c hc,
        eraseOptional_eq i hi, erase_placeStmts map suspending body hbody]
  | map, suspending, .forOf _ _ e body _, h => by
      obtain ⟨he, hbody⟩ := List.append_eq_nil_iff.mp h
      rw [placeStmt, eraseStmt, erase_placeExpr map e he,
        erase_placeStmts map suspending body hbody]
  | _, _, .break _, _ | _, _, .continue _, _ => rfl
  | map, _, .throw e _, h => by rw [placeStmt, eraseStmt, erase_placeExpr map e h]
  | map, suspending, .block body _, h => by
      rw [placeStmt, eraseStmt, erase_placeStmts map suspending body h]
  | map, _, .expr e _, h => by rw [placeStmt, eraseStmt, erase_placeExpr map e h]
  | _, _, .capture _, _ => rfl

/-- Deleting the captures that were placed gives the statements back. -/
theorem erase_placeStmts : ∀ (map : Array LineKind) (suspending : Bool) (stmts : List Stmt),
    captures stmts = [] → eraseStmts (placeStmts map suspending stmts) = stmts
  | _, _, [], _ => rfl
  | map, suspending, stmt :: rest, h => by
      obtain ⟨hstmt, hrest⟩ := List.append_eq_nil_iff.mp h
      have hne : ∀ line, stmt ≠ .capture line := by
        rintro line rfl
        cases hstmt
      rw [placeStmts, eraseStmts_cons (placeStmt_ne_capture map suspending hne),
        eraseStmts_captureBehind, erase_placeStmt map suspending stmt hstmt,
        erase_placeStmts map suspending rest hrest]
end

end StepTrace.Capture
