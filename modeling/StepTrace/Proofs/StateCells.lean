import StepTrace.Proofs.ArrayKeys
import StepTrace.Proofs.ScopeChains

/-!
# The cells of a state

The values of a running program are in cells: the bindings of its scopes and the elements of its
arrays. A write of a value to a cell leaves every other cell as it is and changes nothing else of
the state (`State.Puts`). So what a name stands for and where an element is found is the same
before and after a write, as long as the cells that are looked at on the way are not written.

* `State.content?`: the value in a cell.
* `State.Alike`: the states differ in the contents of cells at most, and in new arrays.
* `puts_store`, `puts_setItem`: the two ways to write.
-/

namespace StepTrace

/-- Where a value of a running program is. -/
inductive Cell where
  | binding (scope : Nat) (name : String)
  | element (array position : Nat)
deriving DecidableEq

namespace State

variable {s t u : State} {m n : Nat} {cell : Cell} {name : String} {scope : Nat} {value : Value}

/-- The value in the cell, if the state has the cell. -/
def content? (s : State) : Cell → Option Value
  | .binding scope name => (s.env.scopes.binding? name scope).map Binding.value
  | .element array position => (s.heap.items array)[position]?

/-- The second state has so many arrays more than the first one; otherwise they differ in the
contents of cells at most. -/
structure Alike (new : Nat) (s t : State) : Prop where
  frames : t.env.frames = s.env.frames
  tree : ∀ j, t.env.scopes.place? j = s.env.scopes.place? j
  bindings : ∀ name j, (t.env.scopes.binding? name j).map Binding.isConst =
    (s.env.scopes.binding? name j).map Binding.isConst
  arrays : t.heap.arrays.size = s.heap.arrays.size + new
  lengths : ∀ p < s.heap.arrays.size, (t.heap.items p).size = (s.heap.items p).size
  objects : t.heap.objects = s.heap.objects
  functions : t.heap.functions = s.heap.functions
  closures : t.closures = s.closures

namespace Alike

theorem refl (s : State) : Alike 0 s s :=
  ⟨rfl, fun _ => rfl, fun _ _ => rfl, rfl, fun _ _ => rfl, rfl, rfl, rfl⟩

theorem trans (h : Alike m s t) (h' : Alike n t u) : Alike (m + n) s u where
  frames := h'.frames.trans h.frames
  tree j := (h'.tree j).trans (h.tree j)
  bindings name j := (h'.bindings name j).trans (h.bindings name j)
  arrays := by rw [h'.arrays, h.arrays, Nat.add_assoc]
  lengths p hp := by
    have hp' : p < t.heap.arrays.size := by
      rw [h.arrays]
      omega
    rw [h'.lengths p hp', h.lengths p hp]
  objects := h'.objects.trans h.objects
  functions := h'.functions.trans h.functions
  closures := h'.closures.trans h.closures

theorem current (h : Alike n s t) : t.env.current = s.env.current := by
  rw [Environment.current, Environment.current, h.frames]

theorem binding?_eq_none (h : Alike n s t) {j : Nat} :
    t.env.scopes.binding? name j = none ↔ s.env.scopes.binding? name j = none := by
  rw [← Option.map_eq_none_iff (f := Binding.isConst), h.bindings, Option.map_eq_none_iff]

/-- A name is bound in the same scope. -/
theorem holder? (h : Alike n s t) (name : String) :
    t.env.scopes.holder? name t.env.current = s.env.scopes.holder? name s.env.current := by
  refine Option.ext fun j => ?_
  rw [Scopes.holder?_eq_some_iff, Scopes.holder?_eq_some_iff, h.current,
    Scopes.outwards_congr h.tree, Option.isSome_iff_ne_none, Option.isSome_iff_ne_none, Ne, Ne,
    h.binding?_eq_none]
  simp only [h.binding?_eq_none]

end Alike

/-! ## Writes -/

/-- The second state is the first one with the value put into the cell. -/
structure Puts (s : State) (cell : Cell) (value : Value) (t : State) : Prop where
  alike : Alike 0 s t
  content (c : Cell) : t.content? c = if c = cell then some value else s.content? c

/-- A write to a binding. -/
theorem puts_store {binding : Binding}
    (hbound : s.env.scopes.binding? name scope = some binding) (hvar : binding.isConst = false)
    (value : Value) :
    s.Puts (.binding scope name) value (s.changeEnv (·.store scope name value)) where
  alike := by
    refine { Alike.refl s with
      tree := fun j => Scopes.place?_declare s.env.scopes scope name value false j
      bindings := fun x j => ?_ }
    change ((s.env.scopes.declare scope name value false).binding? x j).map _ = _
    rw [Scopes.binding?_declare_eq]
    split
    · next h =>
        obtain ⟨rfl, rfl, -⟩ := h
        rw [hbound, Option.map_some, Option.map_some, hvar]
    · rfl
  content c := by
    cases c with
    | element array position => rfl
    | binding j x =>
        change ((s.env.scopes.declare scope name value false).binding? x j).map _ = _
        rw [Scopes.binding?_declare_eq]
        have hlt := Scopes.lt_of_binding? hbound
        by_cases h : j = scope ∧ x = name
        · obtain ⟨rfl, rfl⟩ := h
          rw [if_pos ⟨rfl, rfl, hlt⟩, if_pos rfl, Option.map_some]
        · have hcell : Cell.binding j x ≠ .binding scope name := by simpa using h
          rw [if_neg fun hsame => h ⟨hsame.1, hsame.2.1⟩, if_neg hcell]
          rfl

theorem items_onArray_or (heap : Heap) (array p : Nat) (change : Array Value → Array Value) :
    (heap.onArray array change).items p =
      if p = array ∧ p < heap.arrays.size then change (heap.items p) else heap.items p := by
  unfold Heap.items Heap.onArray
  rw [Array.getElem?_modify]
  by_cases h : array = p
  · subst h
    by_cases hlt : array < heap.arrays.size
    · simp [hlt]
    · simp [hlt]
  · rw [if_neg h, if_neg fun hsame => h hsame.1.symm]

theorem lt_size_of_lt_items {array position : Nat}
    (h : position < (s.heap.items array).size) : array < s.heap.arrays.size := by
  by_contra hout
  simp [Heap.items, hout] at h

/-- A write to an element. -/
theorem puts_setIfInBounds {array position : Nat} (hin : position < (s.heap.items array).size)
    (value : Value) :
    s.Puts (.element array position) value
      (s.changeHeap (·.onArray array (·.setIfInBounds position value))) where
  alike := by
    refine { Alike.refl s with
      arrays := Array.size_modify
      lengths := fun p _ => ?_ }
    change ((s.heap.onArray array _).items p).size = _
    rw [items_onArray_or]
    split
    · exact Array.size_setIfInBounds
    · rfl
  content c := by
    cases c with
    | binding j x => rfl
    | element p i =>
        change ((s.heap.onArray array _).items p)[i]? = _
        have hplace := lt_size_of_lt_items hin
        rw [items_onArray_or]
        by_cases h : p = array
        · subst h
          rw [if_pos ⟨rfl, hplace⟩, Array.getElem?_setIfInBounds]
          by_cases hi : position = i
          · subst hi
            rw [if_pos rfl, if_pos hin, if_pos rfl]
          · rw [if_neg hi, if_neg fun hsame => hi (by simpa using hsame.symm)]
            rfl
        · rw [if_neg fun hsame => h hsame.1, if_neg fun hsame => h (by cases hsame; rfl)]
          rfl

/-! ## New arrays -/

section

variable (s) (items : Array Value)

theorem alike_newUnchecked : Alike 1 s
    ((s.changeHeap (·.addArray items)).record (.unchecked s.heap.arrays.size)) where
  __ := Alike.refl s
  arrays := Array.size_push _
  lengths _ hp := congrArg Array.size (Heap.items_addArray_of_lt hp items)

theorem content?_newUnchecked (h : (s.content? cell).isSome) :
    ((s.changeHeap (·.addArray items)).record (.unchecked s.heap.arrays.size)).content? cell =
      s.content? cell := by
  cases cell with
  | binding j x => rfl
  | element p i =>
      have hin : i < (s.heap.items p).size := by simpa [content?] using h
      exact congrArg (·[i]?) (Heap.items_addArray_of_lt (lt_size_of_lt_items hin) items)

end

end State

end StepTrace
