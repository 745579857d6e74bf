import StepTrace.Value.Basic
import Std.Data.TreeMap

/-!
# Lexical scopes

A scope binds names to values and lies inside at most one other scope, its parent. Scopes
are numbered in the order in which they are made, so a parent has a smaller number than
the scopes inside it, and going outwards ends at the root.

* `Scopes.nearest?`: the first scope, going outwards, with a given property; looking a name
  up, assigning to it and finding where `var` binds are all questions of this kind.
* `Scopes.assign`: refuses a name without a binding and a constant one.
-/

namespace StepTrace

/-- What a name stands for in a scope. -/
structure Binding where
  value : Value
  isConst : Bool
deriving Inhabited

/-- The bindings of one block, or of one function's outermost block. -/
structure Scope where
  bindings : Std.TreeMap String Binding
  parent : Option Nat
  isFunction : Bool

/-- A scope without bindings. -/
def Scope.blank (parent : Option Nat) (isFunction : Bool) : Scope :=
  ⟨∅, parent, isFunction⟩

instance : Inhabited Scope :=
  ⟨.blank none true⟩

/-- Whether the scope itself binds the name. -/
def Scope.binds (scope : Scope) (name : String) : Bool :=
  scope.bindings.contains name

/-- The scope with the name bound anew. -/
def Scope.declare (scope : Scope) (name : String) (value : Value) (isConst : Bool) : Scope :=
  { scope with bindings := scope.bindings.insert name ⟨value, isConst⟩ }

/-- Why an assignment to a name is refused. -/
inductive AssignRefusal where
  | undeclared
  | constant
deriving DecidableEq, Repr

/-- All scopes made so far; scope number 0 is the root. -/
abbrev Scopes := Array Scope

namespace Scopes

/-- The root scope alone. -/
def root : Scopes :=
  #[.blank none true]

/-- The first scope from number `i` outwards that satisfies `p`. Only a smaller number is
followed to, which every parent has. -/
def nearest? (scopes : Scopes) (p : Scope → Bool) (i : Nat) : Option Nat :=
  match scopes[i]? with
  | none => none
  | some scope =>
    if p scope then some i
    else match scope.parent with
      | none => none
      | some j => if j < i then nearest? scopes p j else none
termination_by i

/-- The scope from number `i` outwards that binds the name. -/
def holder? (scopes : Scopes) (name : String) (i : Nat) : Option Nat :=
  scopes.nearest? (·.binds name) i

/-- The binding of the name in scope number `i` itself. -/
def binding? (scopes : Scopes) (name : String) (i : Nat) : Option Binding :=
  scopes[i]?.bind (·.bindings[name]?)

/-- The value of the name as seen from scope number `i`. -/
def lookup? (scopes : Scopes) (name : String) (i : Nat) : Option Value :=
  (scopes.holder? name i).bind fun j => (scopes.binding? name j).map Binding.value

/-- Binds the name in scope number `i`, in place of an earlier binding there. -/
def declare (scopes : Scopes) (i : Nat) (name : String) (value : Value) (isConst : Bool) :
    Scopes :=
  scopes.modify i (·.declare name value isConst)

/-- Where the assignment of the name goes, seen from scope number `i`. -/
def assignee (scopes : Scopes) (name : String) (i : Nat) : Except AssignRefusal Nat :=
  match scopes.holder? name i with
  | none => .error .undeclared
  | some j =>
    if (scopes.binding? name j).any Binding.isConst then .error .constant else .ok j

/-- The scope from number `i` outwards in which `var` binds. -/
def functionScope (scopes : Scopes) (i : Nat) : Nat :=
  (scopes.nearest? (·.isFunction) i).getD 0

/-- The scope around scope number `i`. -/
def parent? (scopes : Scopes) (i : Nat) : Option Nat :=
  scopes[i]?.bind Scope.parent

/-- The names that scope number `i` itself binds, in order. -/
def names (scopes : Scopes) (i : Nat) : List String :=
  (scopes[i]?.map fun scope => scope.bindings.keys).getD []

/-- Removes the bindings of scope number `i` and of every scope around it. -/
def clearChain (scopes : Scopes) (i : Nat) : Scopes :=
  let cleared := scopes.modify i fun scope => { scope with bindings := ∅ }
  match scopes.parent? i with
  | none => cleared
  | some j => if j < i then clearChain cleared j else cleared
termination_by i

end Scopes

end StepTrace
