import StepTrace.Proofs.BoundNames

/-!
# The places of a tree

Every node of a tree stands at a place of the text, which is what a fault in it is reported
with.

* `locs`: the places of all nodes of a program.
* `ConfinedAt`: what is known of a tree whose captures, bound names and places are known.
-/

namespace StepTrace

namespace Syntax

mutual
/-- The places of the nodes of an expression. -/
def exprLocs : Expr → List Location
  | .number _ l | .bigint _ l | .string _ l | .bool _ l | .null l | .variable _ l => [l]
  | .array es l => l :: elementLocs es
  | .object fs l => l :: fieldLocs fs
  | .binary _ a b l => l :: (exprLocs a ++ exprLocs b)
  | .unary _ a l => l :: exprLocs a
  | .update _ p l => l :: placeLocs p
  | .conditional c t f l => l :: (exprLocs c ++ exprLocs t ++ exprLocs f)
  | .assign t v l => l :: (targetLocs t ++ exprLocs v)
  | .compound _ p v l => l :: (placeLocs p ++ exprLocs v)
  | .call f args l => l :: (exprLocs f ++ elementLocs args)
  | .construct f args l => l :: (exprLocs f ++ elementLocs args)
  | .index a k l => l :: (exprLocs a ++ exprLocs k)
  | .member a _ l => l :: exprLocs a
  | .function f l => l :: functionLocs f
  | .await a l => l :: exprLocs a

/-- The places of the nodes of elements. -/
def elementLocs : List Element → List Location
  | [] => []
  | .item e :: rest => exprLocs e ++ elementLocs rest
  | .spread e l :: rest => l :: (exprLocs e ++ elementLocs rest)

/-- The places of the nodes of the values of fields. -/
def fieldLocs : List (String × Expr) → List Location
  | [] => []
  | (_, e) :: rest => exprLocs e ++ fieldLocs rest

/-- The places of the nodes of a place. -/
def placeLocs : Place → List Location
  | .variable _ l => [l]
  | .index a k l => l :: (exprLocs a ++ exprLocs k)
  | .member a _ l => l :: exprLocs a

/-- The places of the nodes of places. -/
def placesLocs : List Place → List Location
  | [] => []
  | p :: rest => placeLocs p ++ placesLocs rest

/-- The places of the nodes of a target. -/
def targetLocs : Target → List Location
  | .single p => placeLocs p
  | .list ps l => l :: placesLocs ps

/-- The places of the nodes of the body of a function. -/
def functionLocs : Function → List Location
  | .mk _ _ body _ _ _ => locs body

/-- The places of the nodes of the bindings of a declaration. -/
def declaratorLocs : List Declarator → List Location
  | [] => []
  | .mk _ none :: rest => declaratorLocs rest
  | .mk _ (some e) :: rest => exprLocs e ++ declaratorLocs rest

/-- The places of the nodes of the first clause of a loop. -/
def startLocs : ForStart → List Location
  | .declare _ ds l => l :: declaratorLocs ds
  | .expr e l => l :: exprLocs e

/-- The places of the nodes of an expression that may be missing. -/
def optionalLocs : Option Expr → List Location
  | none => []
  | some e => exprLocs e

/-- The places of the nodes of a statement. -/
def stmtLocs : Stmt → List Location
  | .function f l => l :: functionLocs f
  | .declare _ ds l => l :: declaratorLocs ds
  | .return e l => l :: optionalLocs e
  | .branch c t none l => l :: (exprLocs c ++ locs t)
  | .branch c t (some f) l => l :: (exprLocs c ++ locs t ++ locs f)
  | .while c body l => l :: (exprLocs c ++ locs body)
  | .doWhile body c l => l :: (locs body ++ exprLocs c)
  | .for none c i body l => l :: (optionalLocs c ++ optionalLocs i ++ locs body)
  | .for (some s) c i body l =>
    l :: (startLocs s ++ optionalLocs c ++ optionalLocs i ++ locs body)
  | .forOf _ _ e body l => l :: (exprLocs e ++ locs body)
  | .break l | .continue l => [l]
  | .throw e l => l :: exprLocs e
  | .block body l => l :: locs body
  | .expr e l => l :: exprLocs e
  | .capture _ => []

/-- The places of the nodes of statements. -/
def locs : List Stmt → List Location
  | [] => []
  | stmt :: rest => stmtLocs stmt ++ locs rest
end

theorem functionLocs_eq (f : Function) : functionLocs f = locs f.body := by
  cases f with | mk => rfl

end Syntax

open Syntax (Location)

/-- The captures of a tree, the names that it binds and the places of its nodes have the
properties. -/
structure ConfinedAt (Marked : Nat → Prop) (Named : String → Prop) (Sited : Location → Prop)
    (lines : List Nat) (names : List String) (locs : List Location) : Prop
    extends Confined Marked Named lines names where
  sited : ∀ loc ∈ locs, Sited loc

namespace ConfinedAt

variable {Marked : Nat → Prop} {Named : String → Prop} {Sited : Location → Prop}
  {lines lines' : List Nat} {names names' : List String} {loc : Location}
  {locs locs' : List Location}

theorem nil : ConfinedAt Marked Named Sited [] [] [] :=
  ⟨Confined.nil, List.forall_mem_nil _⟩

theorem append_iff :
    ConfinedAt Marked Named Sited (lines ++ lines') (names ++ names') (locs ++ locs') ↔
      ConfinedAt Marked Named Sited lines names locs ∧
        ConfinedAt Marked Named Sited lines' names' locs' := by
  constructor
  · rintro ⟨h, hsited⟩
    obtain ⟨hleft, hright⟩ := Confined.append_iff.mp h
    obtain ⟨hlocs, hlocs'⟩ := List.forall_mem_append.mp hsited
    exact ⟨⟨hleft, hlocs⟩, ⟨hright, hlocs'⟩⟩
  · rintro ⟨h, h'⟩
    exact ⟨Confined.append_iff.mpr ⟨h.toConfined, h'.toConfined⟩,
      List.forall_mem_append.mpr ⟨h.sited, h'.sited⟩⟩

/-- A tree that binds names of its own besides those of the trees in it. -/
theorem binding_iff : ConfinedAt Marked Named Sited lines (names' ++ names) locs ↔
    (∀ name ∈ names', Named name) ∧ ConfinedAt Marked Named Sited lines names locs := by
  constructor
  · rintro ⟨h, hsited⟩
    obtain ⟨hnames', hnames⟩ := Confined.binding_iff.mp h
    exact ⟨hnames', hnames, hsited⟩
  · rintro ⟨hnames', h⟩
    exact ⟨Confined.binding_iff.mpr ⟨hnames', h.toConfined⟩, h.sited⟩

/-- A node around other trees. -/
theorem node_iff : ConfinedAt Marked Named Sited lines names (loc :: locs) ↔
    Sited loc ∧ ConfinedAt Marked Named Sited lines names locs := by
  constructor
  · rintro ⟨h, hsited⟩
    obtain ⟨hloc, hlocs⟩ := List.forall_mem_cons.mp hsited
    exact ⟨hloc, h, hlocs⟩
  · rintro ⟨hloc, h⟩
    exact ⟨h.toConfined, List.forall_mem_cons.mpr ⟨hloc, h.sited⟩⟩

end ConfinedAt

end StepTrace
