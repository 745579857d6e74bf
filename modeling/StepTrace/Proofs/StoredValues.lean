import StepTrace.Proofs.BoundNames

/-!
# What holds of all stored values

A run stores values in the bindings of its scopes, in the elements of its arrays and in the fields
of its objects. What holds of all of them is kept by a change that adds no other values, and holds
of whatever is found there.

* `Environment.Stores`, `Heap.Stores`: all values of an environment or a heap have a property.
-/

namespace StepTrace

variable {P : Value → Prop}

/-! ## Environments -/

/-- All values that names stand for have the property. -/
def Environment.Stores (env : Environment) (P : Value → Prop) : Prop :=
  ∀ name i binding, env.scopes.binding? name i = some binding → P binding.value

namespace Environment.Stores

variable {env : Environment}

theorem lookup? (h : env.Stores P) {name : String} {value : Value}
    (hvalue : env.lookup? name = some value) : P value := by
  unfold Environment.lookup? Scopes.lookup? at hvalue
  obtain ⟨i, -, hfound⟩ := Option.bind_eq_some_iff.mp hvalue
  obtain ⟨binding, hbinding, rfl⟩ := Option.map_eq_some_iff.mp hfound
  exact h name i binding hbinding

theorem declareIn (h : env.Stores P) (i : Nat) (name : String) {value : Value} (isConst : Bool)
    (hvalue : P value) : (env.declareIn i name value isConst).Stores P := by
  intro x j binding hbinding
  change ((env.scopes.modify i (·.declare name value isConst))[j]?.bind (·.bindings[x]?)) = _
    at hbinding
  rw [Array.getElem?_modify] at hbinding
  by_cases hj : i = j
  · rw [if_pos hj] at hbinding
    obtain ⟨scope', hscope', hbinding⟩ := Option.bind_eq_some_iff.mp hbinding
    obtain ⟨scope, hscope, rfl⟩ := Option.map_eq_some_iff.mp hscope'
    change (scope.bindings.insert name ⟨value, isConst⟩)[x]? = _ at hbinding
    rw [Std.TreeMap.getElem?_insert] at hbinding
    split at hbinding
    · cases hbinding
      exact hvalue
    · exact h x j binding (by rw [Scopes.binding?, hscope]; exact hbinding)
  · rw [if_neg hj] at hbinding
    exact h x j binding hbinding

theorem declare (h : env.Stores P) (name : String) {value : Value} (isConst : Bool)
    (hvalue : P value) : (env.declare name value isConst).Stores P :=
  h.declareIn env.current name isConst hvalue

theorem declareVar (h : env.Stores P) (name : String) {value : Value} (hvalue : P value) :
    (env.declareVar name value).Stores P :=
  h.declareIn _ name false hvalue

theorem store (h : env.Stores P) (i : Nat) (name : String) {value : Value} (hvalue : P value) :
    (env.store i name value).Stores P :=
  h.declareIn i name false hvalue

/-- One change after the other, for the members of a list. -/
theorem foldl {α : Type} {change : Environment → α → Environment} (xs : List α)
    (hchange : ∀ x ∈ xs, ∀ env : Environment, env.Stores P → (change env x).Stores P)
    (h : env.Stores P) : (xs.foldl change env).Stores P := by
  induction xs generalizing env with
  | nil => exact h
  | cons x rest ih =>
      obtain ⟨hx, hrest⟩ := List.forall_mem_cons.mp hchange
      exact ih hrest (hx env h)

/-- A new scope has no bindings. -/
theorem push (h : env.Stores P) (parent : Option Nat) (isFunction : Bool) (frames : List Frame) :
    Stores ⟨env.scopes.push (.blank parent isFunction), frames⟩ P := by
  intro name i binding hbinding
  unfold Scopes.binding? at hbinding
  rw [Array.getElem?_push] at hbinding
  by_cases hi : i = env.scopes.size
  · rw [if_pos hi] at hbinding
    simp [Scope.blank] at hbinding
  · rw [if_neg hi] at hbinding
    exact h name i binding hbinding

theorem enterBlock (h : env.Stores P) : env.enterBlock.Stores P := by
  unfold Environment.enterBlock
  split
  · exact h
  · exact h.push _ _ _

theorem leaveBlock (h : env.Stores P) : env.leaveBlock.Stores P := by
  unfold Environment.leaveBlock Environment.moveTo
  split
  · exact h
  · split
    · exact h
    · exact h

theorem enterCall (h : env.Stores P) (name : String) (parent : Nat) :
    (env.enterCall name parent).Stores P :=
  h.push _ _ _

theorem leaveCall (h : env.Stores P) : env.leaveCall.Stores P :=
  h

/-- A name without a value gets `undefined` in the next round. -/
theorem nextRound (h : env.Stores P) (names : List String) (hundefined : P .undefined) :
    (StepTrace.nextRound names env).Stores P := by
  refine foldl _ (fun entry hentry after hafter => ?_) h.leaveBlock.enterBlock
  obtain ⟨name, -, rfl⟩ := List.mem_map.mp hentry
  refine hafter.declare name false ?_
  cases hfound : env.lookup? name with
  | none => exact hundefined
  | some value => exact h.lookup? hfound

end Environment.Stores

/-! ## Heaps -/

/-- All elements of arrays and all fields of objects have the property. -/
structure Heap.Stores (heap : Heap) (P : Value → Prop) : Prop where
  items : ∀ array, ∀ item ∈ heap.items array, P item
  fields : ∀ object (name : String) value, (heap.fields object)[name]? = some value → P value

/-- A change that puts values into a container only that have the property. -/
def Write.Stores (P : Value → Prop) : Write → Prop
  | .item _ _ value | .field _ _ value => P value
  | .nothing | .length _ _ => True

theorem mem_of_mem_extract {α : Type} {items : Array α} {start stop : Nat} {item : α}
    (h : item ∈ items.extract start stop) : item ∈ items := by
  rw [← Array.mem_toList_iff, Array.toList_extract, List.extract_eq_take_drop] at h
  exact Array.mem_toList_iff.mp (List.mem_of_mem_drop (List.mem_of_mem_take h))

theorem forall_insertMany {fields : Fields} {entries : List (String × Value)}
    (hfields : ∀ (name : String) value, fields[name]? = some value → P value)
    (h : ∀ entry ∈ entries, P entry.2) :
    ∀ (name : String) value, (fields.insertMany entries)[name]? = some value → P value := by
  induction entries generalizing fields with
  | nil => exact hfields
  | cons entry rest ih =>
      obtain ⟨hentry, hrest⟩ := List.forall_mem_cons.mp h
      rw [Std.TreeMap.insertMany_cons]
      refine ih (fun name value hvalue => ?_) hrest
      rw [Std.TreeMap.getElem?_insert] at hvalue
      split at hvalue
      · cases hvalue
        exact hentry
      · exact hfields name value hvalue

/-- What is listed as a field is one. -/
theorem forall_ofList {entries : List (String × Value)} (h : ∀ entry ∈ entries, P entry.2) :
    ∀ (name : String) value, (Std.TreeMap.ofList entries : Fields)[name]? = some value →
      P value := by
  rw [Std.TreeMap.ofList_eq_insertMany_empty]
  exact forall_insertMany (by simp) h

namespace Heap.Stores

variable {heap : Heap}

theorem addArray (h : heap.Stores P) {items : Array Value} (hitems : ∀ item ∈ items, P item) :
    (heap.addArray items).Stores P := by
  refine ⟨fun array => ?_, h.fields⟩
  rw [Heap.items, Heap.addArray, Array.getElem?_push]
  split
  · exact hitems
  · exact h.items array

theorem addObject (h : heap.Stores P) {fields : Fields}
    (hfields : ∀ (name : String) value, fields[name]? = some value → P value) :
    (heap.addObject fields).Stores P := by
  refine ⟨h.items, fun object => ?_⟩
  rw [Heap.fields, Heap.addObject, Array.getElem?_push]
  split
  · exact hfields
  · exact h.fields object

theorem addFunction (h : heap.Stores P) (name : Option String) : (heap.addFunction name).Stores P :=
  ⟨h.items, h.fields⟩

theorem onArray (h : heap.Stores P) {array : Nat} {change : Array Value → Array Value}
    (hchange : ∀ item ∈ change (heap.items array), P item) :
    (heap.onArray array change).Stores P := by
  refine ⟨fun other item hitem => ?_, h.fields⟩
  rw [Heap.items, Heap.onArray, Array.getElem?_modify] at hitem
  split at hitem
  case isTrue hsame =>
    subst hsame
    cases hfound : heap.arrays[array]? with
    | none => simp [hfound] at hitem
    | some items =>
        rw [Heap.items, hfound] at hchange
        rw [hfound] at hitem
        exact hchange item hitem
  case isFalse => exact h.items other item hitem

theorem onObject (h : heap.Stores P) (object : Nat) (name : String) {value : Value}
    (hvalue : P value) : (heap.onObject object (·.insert name value)).Stores P := by
  refine ⟨h.items, fun other x found hfound => ?_⟩
  rw [Heap.fields, Heap.onObject, Array.getElem?_modify] at hfound
  split at hfound
  case isTrue hsame =>
    subst hsame
    cases hfields : heap.objects[object]? with
    | none => simp [hfields] at hfound
    | some fields =>
        rw [hfields] at hfound
        change (fields.insert name value)[x]? = _ at hfound
        rw [Std.TreeMap.getElem?_insert] at hfound
        split at hfound
        · cases hfound
          exact hvalue
        · exact h.fields object x found (by rw [Heap.fields, hfields]; exact hfound)
  case isFalse => exact h.fields other x found hfound

/-- An array that grows is filled up with `undefined`. -/
theorem forall_resize {items : Array Value} (hitems : ∀ item ∈ items, P item)
    (hundefined : P .undefined) (length : Nat) : ∀ item ∈ resize items length, P item := by
  intro item hitem
  unfold resize at hitem
  split at hitem
  · rw [Array.take_eq_extract] at hitem
    exact hitems item (mem_of_mem_extract hitem)
  · rcases Array.mem_append.mp hitem with hitem | hitem
    · exact hitems item hitem
    · obtain rfl := (Array.mem_replicate.mp hitem).2
      exact hundefined

theorem perform (h : heap.Stores P) {write : Write} (hwrite : write.Stores P)
    (hundefined : P .undefined) : (heap.perform write).Stores P := by
  cases write with
  | nothing => exact h
  | item array index value =>
      refine h.onArray fun item hitem => ?_
      split at hitem
      · rcases Array.mem_or_eq_of_mem_setIfInBounds hitem with hitem | rfl
        · exact h.items array item hitem
        · exact hwrite
      · rcases Array.mem_push.mp hitem with hitem | rfl
        · exact forall_resize (h.items array) hundefined index item hitem
        · exact hwrite
  | length array length => exact h.onArray (forall_resize (h.items array) hundefined length)
  | field object name value => exact h.onObject object name hwrite

end Heap.Stores

end StepTrace
