import StepTrace.Proofs.Placement

/-!
# Statement lists

Statements stand in lists: the program, the bodies of loops, branches and blocks, and the
bodies of functions, which can occur wherever an expression does. What may be placed in such
a list depends on where it stands (`Position`): on the functions around it, and on whether it
is inside the condition or the step of a `for` loop, which are left as they are.

* `sites`: the statement lists of a program, each with its position.
* `sites_placeStmts`: placing captures changes the lists and not where they stand.
* `mem_captures_iff`: the captures of a program are those in its statement lists.
-/

namespace StepTrace

open Capture

namespace Syntax

/-- Where a statement list stands: which of the functions around it are declared with `async`,
the innermost first, and whether it is inside the condition or the step of a `for` loop. -/
structure Position where
  around : List Bool
  inClause : Bool
deriving DecidableEq

/-- The position inside a function. -/
def Position.enter (p : Position) (isAsync : Bool) : Position :=
  { p with around := isAsync :: p.around }

/-- The position inside the condition or the step of a `for` loop. -/
def Position.clause (p : Position) : Position :=
  { p with inClause := true }

/-- Whether the innermost function around the position, if there is one, is declared with
`async`. -/
def Position.suspending (p : Position) : Bool :=
  p.around.head?.getD true

/-- A statement list and where it stands. -/
structure Site where
  position : Position
  stmts : List Stmt

mutual
/-- The statement lists in an expression at the position. -/
def exprSites (p : Position) : Expr → List Site
  | .number _ _ | .bigint _ _ | .string _ _ | .bool _ _ | .null _ | .variable _ _ => []
  | .array es _ => elementSites p es
  | .object fs _ => fieldSites p fs
  | .binary _ a b _ => exprSites p a ++ exprSites p b
  | .unary _ a _ => exprSites p a
  | .update _ place _ => placeSites p place
  | .conditional c t f _ => exprSites p c ++ exprSites p t ++ exprSites p f
  | .assign t v _ => targetSites p t ++ exprSites p v
  | .compound _ place v _ => placeSites p place ++ exprSites p v
  | .call f args _ => exprSites p f ++ elementSites p args
  | .construct f args _ => exprSites p f ++ elementSites p args
  | .index a k _ => exprSites p a ++ exprSites p k
  | .member a _ _ => exprSites p a
  | .function f _ => functionSites p f
  | .await a _ => exprSites p a

/-- The statement lists in elements. -/
def elementSites (p : Position) : List Element → List Site
  | [] => []
  | .item e :: rest => exprSites p e ++ elementSites p rest
  | .spread e _ :: rest => exprSites p e ++ elementSites p rest

/-- The statement lists in the values of fields. -/
def fieldSites (p : Position) : List (String × Expr) → List Site
  | [] => []
  | (_, e) :: rest => exprSites p e ++ fieldSites p rest

/-- The statement lists in a place. -/
def placeSites (p : Position) : Place → List Site
  | .variable _ _ => []
  | .index a k _ => exprSites p a ++ exprSites p k
  | .member a _ _ => exprSites p a

/-- The statement lists in places. -/
def placesSites (p : Position) : List Place → List Site
  | [] => []
  | place :: rest => placeSites p place ++ placesSites p rest

/-- The statement lists in a target. -/
def targetSites (p : Position) : Target → List Site
  | .single place => placeSites p place
  | .list ps _ => placesSites p ps

/-- The statement lists in a function, its body among them. -/
def functionSites (p : Position) : Function → List Site
  | .mk _ _ body isAsync _ _ =>
    ⟨p.enter isAsync, body⟩ :: stmtsSites (p.enter isAsync) body

/-- The statement lists in the bindings of a declaration. -/
def declaratorSites (p : Position) : List Declarator → List Site
  | [] => []
  | .mk _ none :: rest => declaratorSites p rest
  | .mk _ (some e) :: rest => exprSites p e ++ declaratorSites p rest

/-- The statement lists in the first clause of a loop. -/
def startSites (p : Position) : ForStart → List Site
  | .declare _ ds _ => declaratorSites p ds
  | .expr e _ => exprSites p e

/-- The statement lists in an expression that may be missing. -/
def optionalSites (p : Position) : Option Expr → List Site
  | none => []
  | some e => exprSites p e

/-- The statement lists in a statement. -/
def stmtSites (p : Position) : Stmt → List Site
  | .function f _ => functionSites p f
  | .declare _ ds _ => declaratorSites p ds
  | .return e _ => optionalSites p e
  | .branch c t none _ => exprSites p c ++ ⟨p, t⟩ :: stmtsSites p t
  | .branch c t (some f) _ =>
    exprSites p c ++ ⟨p, t⟩ :: stmtsSites p t ++ ⟨p, f⟩ :: stmtsSites p f
  | .while c body _ => exprSites p c ++ ⟨p, body⟩ :: stmtsSites p body
  | .doWhile body c _ => ⟨p, body⟩ :: stmtsSites p body ++ exprSites p c
  | .for none c i body _ =>
    optionalSites p.clause c ++ optionalSites p.clause i ++ ⟨p, body⟩ :: stmtsSites p body
  | .for (some start) c i body _ =>
    startSites p start ++ optionalSites p.clause c ++ optionalSites p.clause i ++
      ⟨p, body⟩ :: stmtsSites p body
  | .forOf _ _ e body _ => exprSites p e ++ ⟨p, body⟩ :: stmtsSites p body
  | .break _ => []
  | .continue _ => []
  | .throw e _ => exprSites p e
  | .block body _ => ⟨p, body⟩ :: stmtsSites p body
  | .expr e _ => exprSites p e
  | .capture _ => []

/-- The statement lists inside the statements of a list, not the list itself. -/
def stmtsSites (p : Position) : List Stmt → List Site
  | [] => []
  | stmt :: rest => stmtSites p stmt ++ stmtsSites p rest
end

/-- The position of the statements of a program. -/
def Position.top : Position :=
  ⟨[], false⟩

/-- The statement lists of a program, the program among them. -/
def sites (program : Program) : List Site :=
  ⟨.top, program⟩ :: stmtsSites .top program

theorem stmtsSites_append (p : Position) (first second : List Stmt) :
    stmtsSites p (first ++ second) = stmtsSites p first ++ stmtsSites p second := by
  induction first with
  | nil => rfl
  | cons stmt rest ih => rw [List.cons_append, stmtsSites, stmtsSites, ih, List.append_assoc]

/-! ## Lists with captures placed in them -/

/-- The map by which captures are placed at the position. -/
def Position.placing (map : Array LineKind) (p : Position) : Array LineKind :=
  if p.inClause then #[] else map

/-- The list with captures placed in it. -/
def Site.place (map : Array LineKind) (site : Site) : Site :=
  { site with
    stmts := placeStmts (site.position.placing map) site.position.suspending site.stmts }

section Placing

variable (map : Array LineKind)

theorem stmtsSites_captureBehind (placing : Array LineKind) (p : Position) (suspending : Bool)
    (stmt : Stmt) : stmtsSites p (captureBehind placing suspending stmt) = [] := by
  unfold captureBehind
  split
  · split <;> rfl
  · rfl

mutual
theorem exprSites_place (p : Position) : ∀ e : Expr,
    exprSites p (placeExpr (p.placing map) e) = (exprSites p e).map (Site.place map)
  | .number _ _ | .bigint _ _ | .string _ _ | .bool _ _ | .null _ | .variable _ _ => rfl
  | .array es _ => elementSites_place p es
  | .object fs _ => fieldSites_place p fs
  | .binary _ a b _ => by
      rw [placeExpr, exprSites, exprSites_place p a, exprSites_place p b, exprSites,
        List.map_append]
  | .unary _ a _ => exprSites_place p a
  | .update _ place _ => placeSites_place p place
  | .conditional c t f _ => by
      rw [placeExpr, exprSites, exprSites_place p c, exprSites_place p t, exprSites_place p f,
        exprSites, List.map_append, List.map_append]
  | .assign t v _ => by
      rw [placeExpr, exprSites, targetSites_place p t, exprSites_place p v, exprSites,
        List.map_append]
  | .compound _ place v _ => by
      rw [placeExpr, exprSites, placeSites_place p place, exprSites_place p v, exprSites,
        List.map_append]
  | .call f args _ => by
      rw [placeExpr, exprSites, exprSites_place p f, elementSites_place p args, exprSites,
        List.map_append]
  | .construct f args _ => by
      rw [placeExpr, exprSites, exprSites_place p f, elementSites_place p args, exprSites,
        List.map_append]
  | .index a k _ => by
      rw [placeExpr, exprSites, exprSites_place p a, exprSites_place p k, exprSites,
        List.map_append]
  | .member a _ _ => exprSites_place p a
  | .function f _ => functionSites_place p f
  | .await a _ => exprSites_place p a

theorem elementSites_place (p : Position) : ∀ es : List Element,
    elementSites p (placeElements (p.placing map) es) = (elementSites p es).map (Site.place map)
  | [] => rfl
  | .item e :: rest => by
      rw [placeElements, elementSites, exprSites_place p e, elementSites_place p rest,
        elementSites, List.map_append]
  | .spread e _ :: rest => by
      rw [placeElements, elementSites, exprSites_place p e, elementSites_place p rest,
        elementSites, List.map_append]

theorem fieldSites_place (p : Position) : ∀ fs : List (String × Expr),
    fieldSites p (placeFields (p.placing map) fs) = (fieldSites p fs).map (Site.place map)
  | [] => rfl
  | (_, e) :: rest => by
      rw [placeFields, fieldSites, exprSites_place p e, fieldSites_place p rest, fieldSites,
        List.map_append]

theorem placeSites_place (p : Position) : ∀ place : Place,
    placeSites p (placePlace (p.placing map) place) = (placeSites p place).map (Site.place map)
  | .variable _ _ => rfl
  | .index a k _ => by
      rw [placePlace, placeSites, exprSites_place p a, exprSites_place p k, placeSites,
        List.map_append]
  | .member a _ _ => exprSites_place p a

theorem placesSites_place (p : Position) : ∀ ps : List Place,
    placesSites p (placePlaces (p.placing map) ps) = (placesSites p ps).map (Site.place map)
  | [] => rfl
  | place :: rest => by
      rw [placePlaces, placesSites, placeSites_place p place, placesSites_place p rest,
        placesSites, List.map_append]

theorem targetSites_place (p : Position) : ∀ t : Target,
    targetSites p (placeTarget (p.placing map) t) = (targetSites p t).map (Site.place map)
  | .single place => placeSites_place p place
  | .list ps _ => placesSites_place p ps

theorem functionSites_place (p : Position) : ∀ f : Function,
    functionSites p (placeFunction (p.placing map) f) = (functionSites p f).map (Site.place map)
  | .mk _ _ body isAsync _ _ =>
      congrArg (_ :: ·) (stmtsSites_place (p.enter isAsync) body)

theorem declaratorSites_place (p : Position) : ∀ ds : List Declarator,
    declaratorSites p (placeDeclarators (p.placing map) ds) =
      (declaratorSites p ds).map (Site.place map)
  | [] => rfl
  | .mk _ none :: rest => declaratorSites_place p rest
  | .mk _ (some e) :: rest => by
      rw [placeDeclarators, declaratorSites, exprSites_place p e, declaratorSites_place p rest,
        declaratorSites, List.map_append]

theorem startSites_place (p : Position) : ∀ start : ForStart,
    startSites p (placeStart (p.placing map) start) = (startSites p start).map (Site.place map)
  | .declare _ ds _ => declaratorSites_place p ds
  | .expr e _ => exprSites_place p e

/-- In the condition and in the step of a loop nothing is placed. -/
theorem optionalSites_clause (p : Position) : ∀ clause : Option Expr,
    optionalSites p.clause clause = (optionalSites p.clause clause).map (Site.place map)
  | none => rfl
  | some e => by
      have h := exprSites_place p.clause e
      have hplacing : p.clause.placing map = #[] := rfl
      rw [hplacing, placeExpr_empty] at h
      exact h

theorem stmtSites_place (p : Position) : ∀ stmt : Stmt,
    stmtSites p (placeStmt (p.placing map) p.suspending stmt) =
      (stmtSites p stmt).map (Site.place map)
  | .function f _ => functionSites_place p f
  | .declare _ ds _ => declaratorSites_place p ds
  | .return none _ => rfl
  | .return (some e) _ => exprSites_place p e
  | .branch c t none _ => by
      rw [placeStmt, stmtSites, exprSites_place p c, stmtsSites_place p t, stmtSites,
        List.map_append]
      rfl
  | .branch c t (some f) _ => by
      rw [placeStmt, stmtSites, exprSites_place p c, stmtsSites_place p t, stmtsSites_place p f,
        stmtSites, List.map_append, List.map_append]
      rfl
  | .while c body _ => by
      rw [placeStmt, stmtSites, exprSites_place p c, stmtsSites_place p body, stmtSites,
        List.map_append]
      rfl
  | .doWhile body c _ => by
      rw [placeStmt, stmtSites, exprSites_place p c, stmtsSites_place p body, stmtSites,
        List.map_append]
      rfl
  | .for none c i body _ => by
      rw [placeStmt, stmtSites, stmtsSites_place p body, stmtSites, List.map_append,
        List.map_append, ← optionalSites_clause p c, ← optionalSites_clause p i]
      rfl
  | .for (some start) c i body _ => by
      rw [placeStmt, stmtSites, startSites_place p start, stmtsSites_place p body, stmtSites,
        List.map_append, List.map_append, List.map_append, ← optionalSites_clause p c,
        ← optionalSites_clause p i]
      rfl
  | .forOf _ _ e body _ => by
      rw [placeStmt, stmtSites, exprSites_place p e, stmtsSites_place p body, stmtSites,
        List.map_append]
      rfl
  | .break _ => rfl
  | .continue _ => rfl
  | .throw e _ => exprSites_place p e
  | .block body _ => congrArg (_ :: ·) (stmtsSites_place p body)
  | .expr e _ => exprSites_place p e
  | .capture _ => rfl

theorem stmtsSites_place (p : Position) : ∀ stmts : List Stmt,
    stmtsSites p (placeStmts (p.placing map) p.suspending stmts) =
      (stmtsSites p stmts).map (Site.place map)
  | [] => rfl
  | stmt :: rest => by
      rw [placeStmts, stmtsSites, stmtsSites_append, stmtsSites_captureBehind, List.nil_append,
        stmtSites_place p stmt, stmtsSites_place p rest, stmtsSites, List.map_append]
end

/-- The statement lists of a program with captures are those of the program, each with
captures placed in it. -/
theorem sites_placeStmts (program : Program) :
    sites (placeStmts map true program) = (sites program).map (Site.place map) :=
  congrArg (_ :: ·) (stmtsSites_place map .top program)

end Placing

/-! ## Captures -/

/-- One of the lists has a capture on the line. -/
def HasCapture (line : Nat) (lists : List Site) : Prop :=
  ∃ site ∈ lists, Stmt.capture line ∈ site.stmts

section Captures

variable {line : Nat}

theorem hasCapture_nil : HasCapture line [] ↔ False := by
  simp [HasCapture]

theorem hasCapture_cons {site : Site} {lists : List Site} :
    HasCapture line (site :: lists) ↔ .capture line ∈ site.stmts ∨ HasCapture line lists := by
  simp [HasCapture]

theorem hasCapture_append {lists lists' : List Site} :
    HasCapture line (lists ++ lists') ↔ HasCapture line lists ∨ HasCapture line lists' := by
  simp [HasCapture, or_and_right, exists_or]

mutual
theorem mem_exprCaptures (p : Position) : ∀ e : Expr,
    line ∈ exprCaptures e ↔ HasCapture line (exprSites p e)
  | .number _ _ | .bigint _ _ | .string _ _ | .bool _ _ | .null _ | .variable _ _ => by
      rw [exprCaptures, exprSites, hasCapture_nil, List.mem_nil_iff]
  | .array es _ => mem_elementCaptures p es
  | .object fs _ => mem_fieldCaptures p fs
  | .binary _ a b _ => by
      rw [exprCaptures, exprSites, hasCapture_append, List.mem_append, mem_exprCaptures p a,
        mem_exprCaptures p b]
  | .unary _ a _ => mem_exprCaptures p a
  | .update _ place _ => mem_placeCaptures p place
  | .conditional c t f _ => by
      rw [exprCaptures, exprSites, hasCapture_append, hasCapture_append, List.mem_append,
        List.mem_append, mem_exprCaptures p c, mem_exprCaptures p t, mem_exprCaptures p f]
  | .assign t v _ => by
      rw [exprCaptures, exprSites, hasCapture_append, List.mem_append, mem_targetCaptures p t,
        mem_exprCaptures p v]
  | .compound _ place v _ => by
      rw [exprCaptures, exprSites, hasCapture_append, List.mem_append, mem_placeCaptures p place,
        mem_exprCaptures p v]
  | .call f args _ => by
      rw [exprCaptures, exprSites, hasCapture_append, List.mem_append, mem_exprCaptures p f,
        mem_elementCaptures p args]
  | .construct f args _ => by
      rw [exprCaptures, exprSites, hasCapture_append, List.mem_append, mem_exprCaptures p f,
        mem_elementCaptures p args]
  | .index a k _ => by
      rw [exprCaptures, exprSites, hasCapture_append, List.mem_append, mem_exprCaptures p a,
        mem_exprCaptures p k]
  | .member a _ _ => mem_exprCaptures p a
  | .function f _ => mem_functionCaptures p f
  | .await a _ => mem_exprCaptures p a

theorem mem_elementCaptures (p : Position) : ∀ es : List Element,
    line ∈ elementCaptures es ↔ HasCapture line (elementSites p es)
  | [] => by rw [elementCaptures, elementSites, hasCapture_nil, List.mem_nil_iff]
  | .item e :: rest => by
      rw [elementCaptures, elementSites, hasCapture_append, List.mem_append, mem_exprCaptures p e,
        mem_elementCaptures p rest]
  | .spread e _ :: rest => by
      rw [elementCaptures, elementSites, hasCapture_append, List.mem_append, mem_exprCaptures p e,
        mem_elementCaptures p rest]

theorem mem_fieldCaptures (p : Position) : ∀ fs : List (String × Expr),
    line ∈ fieldCaptures fs ↔ HasCapture line (fieldSites p fs)
  | [] => by rw [fieldCaptures, fieldSites, hasCapture_nil, List.mem_nil_iff]
  | (_, e) :: rest => by
      rw [fieldCaptures, fieldSites, hasCapture_append, List.mem_append, mem_exprCaptures p e,
        mem_fieldCaptures p rest]

theorem mem_placeCaptures (p : Position) : ∀ place : Place,
    line ∈ placeCaptures place ↔ HasCapture line (placeSites p place)
  | .variable _ _ => by rw [placeCaptures, placeSites, hasCapture_nil, List.mem_nil_iff]
  | .index a k _ => by
      rw [placeCaptures, placeSites, hasCapture_append, List.mem_append, mem_exprCaptures p a,
        mem_exprCaptures p k]
  | .member a _ _ => mem_exprCaptures p a

theorem mem_placesCaptures (p : Position) : ∀ ps : List Place,
    line ∈ placesCaptures ps ↔ HasCapture line (placesSites p ps)
  | [] => by rw [placesCaptures, placesSites, hasCapture_nil, List.mem_nil_iff]
  | place :: rest => by
      rw [placesCaptures, placesSites, hasCapture_append, List.mem_append,
        mem_placeCaptures p place, mem_placesCaptures p rest]

theorem mem_targetCaptures (p : Position) : ∀ t : Target,
    line ∈ targetCaptures t ↔ HasCapture line (targetSites p t)
  | .single place => mem_placeCaptures p place
  | .list ps _ => mem_placesCaptures p ps

theorem mem_functionCaptures (p : Position) : ∀ f : Function,
    line ∈ functionCaptures f ↔ HasCapture line (functionSites p f)
  | .mk _ _ body isAsync _ _ => by
      rw [functionCaptures, functionSites, hasCapture_cons, mem_stmtsCaptures (p.enter isAsync)
        body]

theorem mem_declaratorCaptures (p : Position) : ∀ ds : List Declarator,
    line ∈ declaratorCaptures ds ↔ HasCapture line (declaratorSites p ds)
  | [] => by rw [declaratorCaptures, declaratorSites, hasCapture_nil, List.mem_nil_iff]
  | .mk _ none :: rest => mem_declaratorCaptures p rest
  | .mk _ (some e) :: rest => by
      rw [declaratorCaptures, declaratorSites, hasCapture_append, List.mem_append,
        mem_exprCaptures p e, mem_declaratorCaptures p rest]

theorem mem_startCaptures (p : Position) : ∀ start : ForStart,
    line ∈ startCaptures start ↔ HasCapture line (startSites p start)
  | .declare _ ds _ => mem_declaratorCaptures p ds
  | .expr e _ => mem_exprCaptures p e

theorem mem_optionalCaptures (p : Position) : ∀ e : Option Expr,
    line ∈ optionalCaptures e ↔ HasCapture line (optionalSites p e)
  | none => by rw [optionalCaptures, optionalSites, hasCapture_nil, List.mem_nil_iff]
  | some e => mem_exprCaptures p e

theorem mem_stmtCaptures (p : Position) : ∀ stmt : Stmt,
    line ∈ stmtCaptures stmt ↔ stmt = .capture line ∨ HasCapture line (stmtSites p stmt)
  | .function f _ => by
      rw [stmtCaptures, stmtSites, or_iff_right Stmt.noConfusion, mem_functionCaptures p f]
  | .declare _ ds _ => by
      rw [stmtCaptures, stmtSites, or_iff_right Stmt.noConfusion, mem_declaratorCaptures p ds]
  | .return e _ => by
      rw [stmtCaptures, stmtSites, or_iff_right Stmt.noConfusion, mem_optionalCaptures p e]
  | .branch c t none _ => by
      rw [stmtCaptures, stmtSites, or_iff_right Stmt.noConfusion, List.mem_append,
        hasCapture_append, hasCapture_cons, mem_exprCaptures p c, mem_stmtsCaptures p t]
  | .branch c t (some f) _ => by
      rw [stmtCaptures, stmtSites, or_iff_right Stmt.noConfusion, List.mem_append, List.mem_append,
        hasCapture_append, hasCapture_append, hasCapture_cons, hasCapture_cons, mem_exprCaptures p
        c, mem_stmtsCaptures p t, mem_stmtsCaptures p f]
  | .while c body _ => by
      rw [stmtCaptures, stmtSites, or_iff_right Stmt.noConfusion, List.mem_append,
        hasCapture_append, hasCapture_cons, mem_exprCaptures p c, mem_stmtsCaptures p body]
  | .doWhile body c _ => by
      rw [stmtCaptures, stmtSites, or_iff_right Stmt.noConfusion, List.mem_append,
        hasCapture_append, hasCapture_cons, mem_exprCaptures p c, mem_stmtsCaptures p body]
  | .for none c i body _ => by
      rw [stmtCaptures, stmtSites, or_iff_right Stmt.noConfusion, List.mem_append, List.mem_append,
        hasCapture_append, hasCapture_append, hasCapture_cons, mem_optionalCaptures p.clause c,
        mem_optionalCaptures p.clause i, mem_stmtsCaptures p body]
  | .for (some start) c i body _ => by
      rw [stmtCaptures, stmtSites, or_iff_right Stmt.noConfusion, List.mem_append, List.mem_append,
        List.mem_append, hasCapture_append, hasCapture_append, hasCapture_append, hasCapture_cons,
        mem_startCaptures p start, mem_optionalCaptures p.clause c, mem_optionalCaptures p.clause i,
        mem_stmtsCaptures p body]
  | .forOf _ _ e body _ => by
      rw [stmtCaptures, stmtSites, or_iff_right Stmt.noConfusion, List.mem_append,
        hasCapture_append, hasCapture_cons, mem_exprCaptures p e, mem_stmtsCaptures p body]
  | .break _ | .continue _ => by simp [stmtCaptures, stmtSites, hasCapture_nil]
  | .throw e _ => by
      rw [stmtCaptures, stmtSites, or_iff_right Stmt.noConfusion, mem_exprCaptures p e]
  | .block body _ => by
      rw [stmtCaptures, stmtSites, or_iff_right Stmt.noConfusion, hasCapture_cons, mem_stmtsCaptures
        p body]
  | .expr e _ => by
      rw [stmtCaptures, stmtSites, or_iff_right Stmt.noConfusion, mem_exprCaptures p e]
  | .capture n => by simp [stmtCaptures, stmtSites, hasCapture_nil, eq_comm]

theorem mem_stmtsCaptures (p : Position) : ∀ stmts : List Stmt,
    line ∈ captures stmts ↔ .capture line ∈ stmts ∨ HasCapture line (stmtsSites p stmts)
  | [] => by simp [captures, stmtsSites, hasCapture_nil]
  | stmt :: rest => by
      rw [captures, stmtsSites, List.mem_append, List.mem_cons, hasCapture_append,
        mem_stmtCaptures p stmt, mem_stmtsCaptures p rest, eq_comm, or_or_or_comm]
end

/-- The captures of a program are those in its statement lists. -/
theorem mem_captures_iff {program : Program} {line : Nat} :
    line ∈ captures program ↔ ∃ site ∈ sites program, Stmt.capture line ∈ site.stmts := by
  change _ ↔ HasCapture line (⟨.top, program⟩ :: stmtsSites .top program)
  rw [hasCapture_cons, mem_stmtsCaptures .top program]

end Captures

end Syntax

end StepTrace
