import StepTrace.Proofs.OrdinaryCauses
import StepTrace.Proofs.Upkeep

/-!
# The limit on the length of arrays

Methods and functions that make arrays or let them grow mostly ask first whether the length is
allowed. Where they do not, it is on record that the length was not checked. So arrays stay within
the limit as long as those do of which this is on record.

Some operations know the length of what they make from a state that lies behind them, with
callbacks run in between, so what is known is carried along with the computation.

* `Heap.Limited`, `Moment.Fits`: all arrays, or one that was not checked, within the limit.
* `arrayUpkeep`, `KeepsLimit`: the limit as something that a run keeps up.
-/

namespace StepTrace

open Syntax (Location)

variable {α β : Type}

/-! ## Heaps -/

namespace Heap

variable {heap : Heap} {array : Nat}

/-- No array is longer than allowed. -/
def Limited (heap : Heap) : Prop :=
  ∀ array, (heap.items array).size ≤ Limit.arrayLength

/-- No other array is longer than allowed. -/
def LimitedBut (array : Nat) (heap : Heap) : Prop :=
  ∀ other, other ≠ array → (heap.items other).size ≤ Limit.arrayLength

theorem LimitedBut.limited (h : heap.LimitedBut array)
    (harray : (heap.items array).size ≤ Limit.arrayLength) : heap.Limited := by
  intro other
  by_cases hother : other = array
  · rw [hother]
    exact harray
  · exact h other hother

theorem Limited.addArray_but (h : heap.Limited) (items : Array Value) :
    (heap.addArray items).LimitedBut heap.arrays.size := by
  intro other hother
  rw [Heap.items, Heap.addArray, Array.getElem?_push, if_neg hother]
  exact h other

theorem Limited.addArray (h : heap.Limited) {items : Array Value}
    (hitems : items.size ≤ Limit.arrayLength) : (heap.addArray items).Limited := by
  refine (h.addArray_but items).limited ?_
  simpa [Heap.items, Heap.addArray] using hitems

theorem Limited.onArray_but (h : heap.Limited) (array : Nat)
    (change : Array Value → Array Value) : (heap.onArray array change).LimitedBut array := by
  intro other hother
  rw [items, onArray, Array.getElem?_modify, if_neg (Ne.symm hother)]
  exact h other

theorem size_onArray_le (heap : Heap) (array : Nat) (change : Array Value → Array Value) :
    ((heap.onArray array change).items array).size ≤ (change (heap.items array)).size := by
  unfold items onArray
  dsimp only
  rw [Array.getElem?_modify, if_pos rfl]
  cases heap.arrays[array]? with
  | none => exact Nat.zero_le _
  | some items => exact Nat.le_refl _

theorem Limited.onArray (h : heap.Limited) {change : Array Value → Array Value}
    (hchange : (change (heap.items array)).size ≤ Limit.arrayLength) :
    (heap.onArray array change).Limited :=
  (h.onArray_but array change).limited (Nat.le_trans (size_onArray_le heap array change) hchange)

end Heap

/-! ## Writes -/

@[simp]
theorem size_resize (items : Array Value) (length : Nat) : (resize items length).size = length := by
  unfold resize
  split
  · rw [Array.take_eq_extract, Array.size_extract]
    omega
  · rw [Array.size_append, Array.size_replicate]
    omega

/-- The write leaves no array longer than allowed. -/
def Write.Limited (heap : Heap) (write : Write) : Prop :=
  heap.Limited → (heap.perform write).Limited

theorem Limit.checkArray_eq (length : Nat) :
    checkArray length = if length ≤ arrayLength then .ok () else .error .arrayLength := by
  unfold checkArray
  by_cases hlength : length ≤ arrayLength
  · rw [if_pos hlength, if_neg (Nat.not_lt.mpr hlength)]
  · rw [if_neg hlength, if_pos (Nat.not_le.mp hlength)]

theorem Limit.le_of_checkArray {length : Nat} {u : Unit} (h : checkArray length = .ok u) :
    length ≤ arrayLength := by
  rw [checkArray_eq] at h
  split at h
  · assumption
  · cases h

/-- The number is one of elements. -/
def Counts (x : Float) : Prop :=
  ¬ x < 0 ∧ Number.isInteger x = true

instance (x : Float) : Decidable (Counts x) :=
  inferInstanceAs (Decidable (_ ∧ _))

theorem not_counts_iff (x : Float) : (x < 0 || ! Number.isInteger x) = true ↔ ¬ Counts x := by
  simp [Counts, Decidable.imp_iff_not_or]

namespace Value

variable {heap : Heap} {write : Write}

theorem setItem_eq (h : heap.Limited) (array position : Nat) (value : Value) :
    setItem heap array position value =
      if max (heap.items array).size (position + 1) ≤ Limit.arrayLength then
        .ok (.item array position value)
      else .error .arrayLength := by
  have hsize := h array
  unfold setItem
  split
  case isTrue hposition =>
    rw [Nat.max_eq_right (by omega), Limit.checkArray_eq]
    split
    · rfl
    · rfl
  case isFalse hposition =>
    rw [if_pos (by omega)]
    rfl

theorem setLength_eq (heap : Heap) (array : Nat) (value : Value) :
    setLength heap array value =
      if Number.toCount (value.toNumber heap) ≤ Limit.arrayLength ∧
          Counts (value.toNumber heap) then
        .ok (.length array (Number.toCount (value.toNumber heap)))
      else .error .arrayLength := by
  unfold setLength
  dsimp only
  by_cases hcounts : Counts (value.toNumber heap)
  · rw [if_neg fun h => (not_counts_iff _).mp h hcounts, Limit.checkArray_eq]
    simp only [hcounts, and_true]
    split
    · rfl
    · rfl
  · rw [if_pos ((not_counts_iff _).mpr hcounts), if_neg fun h => hcounts h.2]
    rfl

theorem limited_setItem {array position : Nat} {value : Value}
    (h : setItem heap array position value = .ok write) : write.Limited heap := by
  intro hheap
  rw [setItem_eq hheap] at h
  split at h
  case isTrue hsize =>
    cases h
    refine hheap.onArray ?_
    split
    · rw [Array.size_setIfInBounds]
      exact hheap array
    · rw [Array.size_push, size_resize]
      omega
  case isFalse => cases h

theorem limited_setLength {array : Nat} {value : Value}
    (h : setLength heap array value = .ok write) : write.Limited heap := by
  intro hheap
  rw [setLength_eq] at h
  split at h
  case isTrue hlength =>
    cases h
    refine hheap.onArray ?_
    rw [size_resize]
    exact hlength.1
  case isFalse => cases h

theorem limited_setMember {container value : Value} {name : String}
    (h : setMember heap container name value = .ok write) : write.Limited heap := by
  unfold setMember at h
  split at h
  · split at h
    · exact limited_setLength h
    · split at h
      · exact limited_setItem h
      · cases h
        exact id
  · cases h
    exact id
  · cases h
  · cases h
  · cases h
    exact id

theorem limited_setIndexed {container key value : Value}
    (h : setIndexed heap container key value = .ok write) : write.Limited heap := by
  unfold setIndexed at h
  split at h
  · split at h
    · exact limited_setItem h
    · exact limited_setMember h
    · cases h
      exact id
  · exact limited_setMember h

end Value

/-! ## Computations -/

/-- If an array was made or replaced without a check, it is within the limit. -/
def Moment.Fits (moment : Moment) : Prop :=
  ∀ array, moment.event = .unchecked array →
    (moment.heap.items array).size ≤ Limit.arrayLength

/-- No array is longer than allowed, as long as those are not that were not checked. -/
def arrayUpkeep : Upkeep where
  OfEnv _ := True
  OfHeap := Heap.Limited
  OfEvent _ := True
  OfClosure _ := True
  Fits := Moment.Fits
  changed := trivial

/-- A change of the heap, and that nothing limited the length of the one array that it concerns. -/
theorem Upkeep.Kept.unchecked {known : Prop} {s : State} {change : Heap → Heap} {array : Nat}
    (h : s.heap.Limited → (change s.heap).LimitedBut array) :
    arrayUpkeep.Kept known True s ((s.changeHeap change).record (.unchecked array)) := by
  refine of_past [⟨.changed, s.env, change s.heap⟩,
    ⟨.unchecked array, s.env, change s.heap⟩] (by simp [State.changeHeap, State.record]) id ?_
  intro _ hs hfits
  have hheap : (change s.heap).Limited :=
    (h hs.heap).limited (hfits ⟨.unchecked array, s.env, change s.heap⟩ (by simp) array rfl)
  refine ⟨trivial, hheap, fun moment hmoment => ?_, trivial⟩
  rw [List.mem_cons, List.mem_singleton] at hmoment
  rcases hmoment with rfl | rfl
  · exact ⟨trivial, hheap, trivial⟩
  · exact ⟨trivial, hheap, trivial⟩

/-- The computation leaves all arrays within the limit, as long as those are that it does not
check. -/
abbrev KeepsLimit (m : Eval α) : Prop :=
  arrayUpkeep.Keeps True (fun _ => True) m

namespace KeepsLimit

variable {known : Prop} {m : Eval α} {loc : Location}

theorem pure (a : α) : KeepsLimit (pure a) :=
  Upkeep.Keeps.pure fun _ => trivial

theorem ask (question : Environment → Heap → α) : KeepsLimit (Eval.ask question) :=
  Upkeep.Keeps.ask fun _ _ _ _ _ => trivial

theorem consult (question : Heap → α) : KeepsLimit (Eval.consult question) :=
  ask _

theorem consultAt (question : Heap → Except Cause α) : KeepsLimit (Eval.consultAt loc question) :=
  Upkeep.Keeps.consultAt fun _ _ _ _ _ => trivial

theorem changeEnv (change : Environment → Environment) : KeepsLimit (Eval.changeEnv change) :=
  Upkeep.Keeps.changeEnv fun _ _ _ => trivial

theorem record (event : Event) (a : α) : KeepsLimit fun s => .done a (s.record event) :=
  Upkeep.Keeps.record (fun _ => trivial) fun _ => trivial

theorem untested (value : Value) : KeepsLimit (Eval.untested value) :=
  record _ value

theorem leaving (leave : Environment → Environment) (h : KeepsLimit m) :
    KeepsLimit (Eval.leaving leave m) :=
  Upkeep.Keeps.leaving h fun _ _ => trivial

theorem newArray {items : Array Value} (h : known → items.size ≤ Limit.arrayLength) :
    arrayUpkeep.Keeps known (fun _ => True) (Eval.newArray items) :=
  .newArray (fun hknown _ hheap => Heap.Limited.addArray hheap (h hknown)) fun _ => trivial

theorem changed (array : Nat) {change : Array Value → Array Value}
    (h : known → ∀ items, items.size ≤ Limit.arrayLength →
      (change items).size ≤ Limit.arrayLength) :
    arrayUpkeep.Keeps known (fun _ => True) (Builtin.changed array change) :=
  .changed array (fun hknown _ hheap => Heap.Limited.onArray hheap (h hknown _ (hheap array)))
    trivial

end KeepsLimit

end StepTrace
