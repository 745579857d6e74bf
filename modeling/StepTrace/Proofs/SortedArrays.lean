import StepTrace.Proofs.ArrayOperations
import StepTrace.Proofs.Comparisons
import StepTrace.Proofs.CorrespondingPrograms

/-!
# Sorted arrays

Whatever a comparator does, an array that has been sorted holds the elements that it held at the
call, the undefined ones last, and a sort whose comparator fails has done nothing besides calling
it (`sort_ends`). If the answers of the comparator are those of a strict weak order, the elements
are in that order, and those that tie stand as they did.

* `Congruence.keepsArrays`: no code takes an array away, so there is still one to be written to.
* `textAfter_weakOrder`: the order of texts, which is the one without a comparator.
-/

namespace StepTrace

open Syntax (Location)

/-! ## Arrays stay -/

/-- There are as many arrays in the one state as in the other, or more. -/
def State.KeepsArrays (s s' : State) : Prop :=
  s.heap.arrays.size ≤ s'.heap.arrays.size

/-- No array is taken away, of the right side alone. -/
def Congruence.keepsArrays : Congruence where
  Rel _ m := ∀ s, (m s).Ends (fun _ => s.KeepsArrays) fun _ => s.KeepsArrays
  pure _ s := Nat.le_refl s.heap.arrays.size
  bind hm hf s := by
    refine (hm s).bind fun a s' h => ?_
    exact (hf a s').mono (fun _ _ => Nat.le_trans h) fun _ _ => Nat.le_trans h
  leaving leave _ _ hm s := (hm s).leaving
  fault _ s := Nat.le_refl s.heap.arrays.size
  exhausted s := Nat.le_refl s.heap.arrays.size
  asking hf s := by
    rw [Eval.bind_apply]
    exact hf s.env s.heap s
  changeEnv _ s := Nat.le_refl s.heap.arrays.size
  changeHeap _ hkeeps s := hkeeps s.heap
  unchecked _ s := Nat.le_refl s.heap.arrays.size
  untested _ s := Nat.le_refl s.heap.arrays.size
  calling s := Nat.le_refl s.heap.arrays.size
  leaveWith _ s := Nat.le_refl s.heap.arrays.size
  newClosure _ s := Nat.le_refl s.heap.arrays.size
  closureAt _ s := Nat.le_refl s.heap.arrays.size
  capture names line s := by
    rw [Eval.capture_apply]
    rintro (_ | _)
    · exact Nat.le_refl s.heap.arrays.size
    · exact Nat.le_refl s.heap.arrays.size
  complete stmt rest s := by
    unfold Eval.complete
    split
    · exact Nat.le_refl s.heap.arrays.size
    · exact Nat.le_refl s.heap.arrays.size

namespace Builtin

variable {after : Value → Value → Eval Bool} {Among : Value → Prop} {s s' : State}
  {compared : List (Comparison Value)}

/-- No comparison takes an array away. -/
theorem keepsArrays_sortsAfter (names : List String) (bound : Nat) (comparator : Option Value)
    (loc : Location) (a b : Value) (s : State) :
    (sortsAfter (callWithin names bound) comparator loc a b s).Ends (fun _ => s.KeepsArrays)
      fun _ => s.KeepsArrays := by
  have hcalls := Congruence.keepsArrays.correspondence.programs.settings names trivial bound
  have hafter : Congruence.keepsArrays.Rel (sortsAfter (callWithin names bound) comparator loc a b)
      (sortsAfter (callWithin names bound) comparator loc a b) :=
    Congruence.keepsArrays.correspondence.toAccord.sortsAfter hcalls.call comparator trivial a b
  exact hafter s

theorem Compared.keepsArrays (h : Compared after Among s compared s')
    (hafter : ∀ a b s, (after a b s).Ends (fun _ => s.KeepsArrays) fun _ => s.KeepsArrays) :
    s.KeepsArrays s' := by
  induction h with
  | none s => exact Nat.le_refl s.heap.arrays.size
  | more _ _ hend _ ih => exact Nat.le_trans ((hafter _ _ _).of_mayEnd hend) ih

/-! ## The order of texts -/

theorem textAfter_weakOrder (heap : Heap) (Among : Value → Prop) :
    WeakOrder (textAfter heap) Among where
  irrefl a _ := by simp [textAfter]
  trans a b c _ _ _ hab hbc := by
    simp only [textAfter, decide_eq_true_eq] at *
    exact String.lt_trans hbc hab
  tied a b c _ _ _ hab hbc := by
    simp only [Tied, textAfter, decide_eq_false_iff_not, String.not_lt] at *
    have hab' := String.le_antisymm hab.1 hab.2
    rw [hab']
    exact hbc

/-- Comparing texts changes nothing and is answered by their order. -/
theorem Compared.of_texts {call : Caller} {loc : Location}
    (h : Compared (sortsAfter call Option.none loc) Among s compared s') :
    s' = s ∧ AnsweredBy (textAfter s.heap) compared := by
  induction h with
  | none s => exact ⟨rfl, List.forall_mem_nil _⟩
  | more ha hb hend _ ih =>
      cases hend
      obtain ⟨rfl, hothers⟩ := ih
      exact ⟨rfl, List.forall_mem_cons.mpr ⟨rfl, hothers⟩⟩

/-! ## Sorting an array -/

/-- Sorting the elements is sorting those that are not undefined. -/
theorem sortValues_eq (call : Caller) (comparator : Option Value) (loc : Location)
    (items : List Value) :
    sortValues call comparator loc items =
      mergeSort (sortsAfter call comparator loc) (items.filter (! ·.isUndefined)) >>= fun sorted =>
        pure (sorted ++ items.filter Value.isUndefined) := by
  rw [sortValues, List.partition_eq_filter_filter]
  rfl

theorem sort_apply (call : Caller) (array : Nat) (args : List Value) (loc : Location) (s : State) :
    arrayMethod call array "sort" args loc s =
      (sortValues call (given? args 0) loc (s.heap.items array).toList >>= fun sorted =>
        changed array fun _ => sorted.toArray) s := rfl

/-- The elements that are compared are brought into order: none is lost, and if the answers are
those of a strict weak order, so is the order of the elements. -/
structure Sorts (compared : List (Comparison Value)) (present sorted : List Value) : Prop where
  perm : sorted.Perm present
  inOrder : ∀ order, WeakOrder order (· ∈ present) → AnsweredBy order compared →
    InOrder order sorted ∧ SameTies order (· ∈ present) sorted present

theorem Sorts.of_merged {present sorted : List Value}
    (h : AllMerged (present.map fun item => [item]) compared sorted) :
    Sorts compared present sorted := by
  have hflatten : (present.map fun item => [item]).flatten = present := by
    rw [← List.flatMap_def, List.flatMap_singleton']
  constructor
  · have hperm := h.perm
    rwa [hflatten] at hperm
  · intro order horder hanswers
    have hresult := h.inOrder horder hanswers (by simp) (by simp [InOrder])
    rwa [hflatten] at hresult

/-- What a sort of an array comes to: it compares the elements that are not undefined, one after
the other, and then writes them in their new order and the undefined ones behind them. -/
structure SortsArray (after : Value → Value → Eval Bool) (array : Nat) (s s' : State)
    (compared : List (Comparison Value)) (present absent sorted : List Value) : Prop where
  compares : ∃ s₁, Compared after (· ∈ present) s compared s₁ ∧
    s' = s₁.changeHeap (·.onArray array fun _ => (sorted ++ absent).toArray)
  count : compared.length ≤ present.length * Nat.clog 2 present.length
  sorts : Sorts compared present sorted
  holds : (s'.heap.items array).toList = sorted ++ absent

/-- What is written to an array is there if the array is, and nothing is written to one that is
not, since that one holds nothing to be sorted. -/
theorem items_written {array : Nat} {result : List Value} (hkeeps : s.KeepsArrays s')
    (hresult : result.Perm (s.heap.items array).toList) :
    ((s'.heap.onArray array fun _ => result.toArray).items array).toList = result := by
  by_cases harray : array < s.heap.arrays.size
  · rw [Heap.items_onArray (Nat.lt_of_lt_of_le harray hkeeps)]
  · have hempty : (s.heap.items array).toList = [] := by
      rw [Heap.items, Array.getElem?_eq_none (Nat.not_lt.mp harray)]
      rfl
    rw [hempty] at hresult
    obtain rfl := List.perm_nil.mp hresult
    have hsize := Heap.size_onArray_le s'.heap array fun _ => [].toArray
    exact List.eq_nil_of_length_eq_zero (Nat.le_zero.mp hsize)

/-- **Array sort is a safe stable sort.** Whatever the comparator does: a sort that comes to its
end has made only so many comparisons, none of an undefined element, and leaves the elements that
the array held at the call, the undefined ones last and the others in the order of the answers, if
these are those of a strict weak order. A sort that does not come to its end was stopped in a
comparison, and had done nothing but compare. -/
theorem sort_ends (names : List String) (bound array : Nat) (args : List Value) (loc : Location)
    (s : State) :
    let after := sortsAfter (callWithin names bound) (given? args 0) loc
    let items := (s.heap.items array).toList
    let present := items.filter (! ·.isUndefined)
    let absent := items.filter Value.isUndefined
    (arrayMethod (callWithin names bound) array "sort" args loc s).Ends
      (fun answer s' => answer = .array array ∧ ∃ compared sorted,
        SortsArray after array s s' compared present absent sorted ∧
        (sorted ++ absent).Perm items ∧
        (given? args 0 = Option.none → InOrder (textAfter s.heap) sorted ∧
          SameTies (textAfter s.heap) (· ∈ present) sorted present))
      (CutShort after (· ∈ present) (present.length * Nat.clog 2 present.length) s) := by
  intro after items present absent
  rw [sort_apply, sortValues_eq, bind_assoc]
  refine Process.Ends.bind (compares_mergeSort present (fun a ha => ha) s) ?_
  rintro sorted s₁ ⟨compared, hcompared, hcount, hmerged⟩
  have hsorts : Sorts compared present sorted := .of_merged hmerged
  have hperm : (sorted ++ absent).Perm items :=
    (hsorts.perm.append_right absent).trans
      (List.perm_append_comm.trans (List.filter_append_perm _ items))
  have hkeeps : s.KeepsArrays s₁ :=
    hcompared.keepsArrays (keepsArrays_sortsAfter names bound (given? args 0) loc)
  rw [pure_bind]
  refine ⟨rfl, compared, sorted, ⟨⟨s₁, hcompared, rfl⟩, hcount, hsorts, ?_⟩, hperm, fun hnone => ?_⟩
  · exact items_written hkeeps hperm
  · change Compared (sortsAfter _ (given? args 0) loc) _ s compared s₁ at hcompared
    rw [hnone] at hcompared
    exact hsorts.inOrder _ (textAfter_weakOrder s.heap _) hcompared.of_texts.2

end Builtin

end StepTrace
