import StepTrace.Trace.Snapshot
import Mathlib.Data.List.Perm.Subperm
import Mathlib.Logic.Relation

/-!
# Values that have a snapshot

A container holds the values of its elements or of its fields (`Value.Holds`). A value has a
snapshot exactly if it is no function and no container that contains itself can be reached
from it (`isSome_snapshot?_iff`).

Copying remembers the containers that it is inside of, and gives up when it meets one of
them again or when it has gone `depth` levels down. The second never happens first: the
containers that it is inside of are pairwise different and each of them holds something, so
there are no more of them than there are containers in the heap.
-/

namespace StepTrace

namespace Value

open Relation

/-! ## What containers hold -/

/-- The container that the value refers to. -/
def container? : Value → Option Place
  | .array place => some (.array place)
  | .object place => some (.object place)
  | _ => none

/-- The elements of an array, the values of the fields of an object. -/
def contents (heap : Heap) : Value → List Value
  | .array place => (heap.items place).toList
  | .object place => (heap.fields place).toList.map Prod.snd
  | _ => []

/-- The second value is held by the container that the first one refers to. -/
def Holds (heap : Heap) (v w : Value) : Prop :=
  w ∈ v.contents heap

/-- From the value a container can be reached that contains itself, directly or through
other containers. -/
def ReachesCycle (heap : Heap) (v : Value) : Prop :=
  ∃ c, ReflTransGen (Holds heap) v c ∧ TransGen (Holds heap) c c

variable {heap : Heap} {v w : Value}

theorem container?_injective {c : Place} (hv : v.container? = some c)
    (hw : w.container? = some c) : v = w := by
  cases v with
  | array p =>
      cases hv
      cases w with
      | array q => cases hw; rfl
      | _ => cases hw
  | object p =>
      cases hv
      cases w with
      | object q => cases hw; rfl
      | _ => cases hw
  | _ => cases hv

theorem Holds.isSome_container? (h : Holds heap v w) : v.container?.isSome := by
  cases v with
  | array p => rfl
  | object p => rfl
  | _ => simp [Holds, contents] at h

/-- A value from which a cycle can be reached holds another one. -/
theorem ReachesCycle.exists_holds (h : ReachesCycle heap v) :
    ∃ w, Holds heap v w ∧ ReachesCycle heap w := by
  obtain ⟨c, hreach, hcycle⟩ := h
  rcases ReflTransGen.cases_head hreach with rfl | ⟨w, hvw, hrest⟩
  · obtain ⟨w, hcw, hrest⟩ := TransGen.head'_iff.mp hcycle
    exact ⟨w, hcw, v, hrest, hcycle⟩
  · exact ⟨w, hvw, c, hrest, hcycle⟩

theorem ReachesCycle.of_holds (hvw : Holds heap v w) (h : ReachesCycle heap w) :
    ReachesCycle heap v := by
  obtain ⟨c, hreach, hcycle⟩ := h
  exact ⟨c, .head hvw hreach, hcycle⟩

/-! ## Copying -/

theorem isSome_mapM {α β : Type} (f : α → Option β) (xs : List α) :
    (xs.mapM f).isSome ↔ ∀ x ∈ xs, (f x).isSome := by
  induction xs with
  | nil => simp
  | cons x rest ih =>
      rw [List.mapM_cons, List.forall_mem_cons, ← ih]
      cases f x with
      | none => simp
      | some y => cases rest.mapM f <;> simp

theorem isSome_snapshotWithin_plain (depth : Nat) (inside : List Place)
    (h : v.container? = none) : (snapshotWithin heap depth inside v).isSome := by
  cases v with
  | array p => cases h
  | object p => cases h
  | _ => cases depth <;> simp [snapshotWithin]

theorem isSome_snapshotWithin_zero (inside : List Place) :
    (snapshotWithin heap 0 inside v).isSome ↔ v.container? = none := by
  cases v <;> simp [snapshotWithin, container?]

/-- A container is copied unless it is inside itself or something that it holds cannot be
copied. Fields that are left out can always be copied, so they need no mention. -/
theorem isSome_snapshotWithin_succ {depth : Nat} {inside : List Place} {c : Place}
    (hc : v.container? = some c) :
    (snapshotWithin heap (depth + 1) inside v).isSome ↔
      c ∉ inside ∧ ∀ w ∈ v.contents heap, (snapshotWithin heap depth (c :: inside) w).isSome := by
  cases v with
  | array p =>
      cases hc
      by_cases hinside : Place.array p ∈ inside
      · simp [snapshotWithin, hinside]
      · simp [snapshotWithin, hinside, isSome_mapM, contents]
  | object p =>
      cases hc
      by_cases hinside : Place.object p ∈ inside
      · simp [snapshotWithin, hinside]
      · have hleftOut (field : String × Value)
            (h : (field.2.isFunction || field.2.isUndefined) = true) :
            (snapshotWithin heap depth (.object p :: inside) field.2).isSome := by
          refine isSome_snapshotWithin_plain depth _ ?_
          cases hfield : field.2 <;> simp [hfield, isFunction, isUndefined] at h <;> rfl
        simp only [snapshotWithin, List.contains_eq_mem, hinside, decide_false,
          Bool.false_eq_true, if_false, Option.isSome_map, isSome_mapM, not_false_eq_true,
          true_and, contents, List.forall_mem_map]
        constructor
        · intro h field hfield
          by_cases hshown : (field.2.isFunction || field.2.isUndefined) = true
          · exact hleftOut field hshown
          · exact h field (List.mem_filter.mpr ⟨hfield, by simpa using hshown⟩)
        · intro h field hfield
          exact h field (List.mem_filter.mp hfield).1
  | _ => cases hc

/-- From a value that reaches a cycle copying does not come back, however deep it goes. -/
theorem ReachesCycle.snapshotWithin_eq_none (h : ReachesCycle heap v) (depth : Nat)
    (inside : List Place) : ¬ (snapshotWithin heap depth inside v).isSome := by
  induction depth generalizing v inside with
  | zero =>
      obtain ⟨w, hvw, -⟩ := h.exists_holds
      rw [isSome_snapshotWithin_zero]
      intro hnone
      simpa [hnone] using hvw.isSome_container?
  | succ depth ih =>
      obtain ⟨w, hvw, hw⟩ := h.exists_holds
      obtain ⟨c, hc⟩ := Option.isSome_iff_exists.mp hvw.isSome_container?
      rw [isSome_snapshotWithin_succ hc]
      rintro ⟨-, hcopied⟩
      exact ih hw _ (hcopied w hvw)

/-! ## The bound on the depth -/

/-- The containers of the heap. -/
def places (heap : Heap) : List Place :=
  (List.range heap.arrays.size).map .array ++ (List.range heap.objects.size).map .object

theorem length_places : (places heap).length = heap.containers := by
  simp [places, Heap.containers]

theorem Holds.mem_places {c : Place} (h : Holds heap v w) (hc : v.container? = some c) :
    c ∈ places heap := by
  cases v with
  | array p =>
      cases hc
      by_cases hp : p < heap.arrays.size
      · simp [places, hp]
      · simp [Holds, contents, Heap.items, hp] at h
  | object p =>
      cases hc
      by_cases hp : p < heap.objects.size
      · simp [places, hp]
      · have hnone : heap.objects[p]? = none := by simpa using hp
        have hempty : heap.fields p = ∅ := by rw [Heap.fields, hnone]; rfl
        rw [Holds, contents, hempty] at h
        simp at h
  | _ => cases hc

/-- The containers that copying is inside of on the way to a value: pairwise different, and
each of them leads to the value. -/
structure Inside (heap : Heap) (inside : List Place) (v : Value) : Prop where
  nodup : inside.Nodup
  leads : ∀ c ∈ inside, ∃ u, u.container? = some c ∧ TransGen (Holds heap) u v

namespace Inside

variable {inside : List Place}

theorem nil : Inside heap [] v where
  nodup := List.nodup_nil
  leads := by simp

theorem length_le (h : Inside heap inside v) : inside.length ≤ heap.containers := by
  have hsubset : inside ⊆ places heap := by
    intro c hc
    obtain ⟨u, hu, hleads⟩ := h.leads c hc
    obtain ⟨w, huw, -⟩ := TransGen.head'_iff.mp hleads
    exact huw.mem_places hu
  have hle := (h.nodup.subperm hsubset).length_le
  rwa [length_places] at hle

/-- A container without a cycle has not been met before. -/
theorem not_mem {c : Place} (h : Inside heap inside v) (hacyclic : ¬ ReachesCycle heap v)
    (hc : v.container? = some c) : c ∉ inside := by
  intro hmem
  obtain ⟨u, hu, hleads⟩ := h.leads c hmem
  obtain rfl : u = v := container?_injective hu hc
  exact hacyclic ⟨u, .refl, hleads⟩

theorem cons {c : Place} (h : Inside heap inside v) (hc : v.container? = some c)
    (hnew : c ∉ inside) (hvw : Holds heap v w) : Inside heap (c :: inside) w where
  nodup := List.nodup_cons.mpr ⟨hnew, h.nodup⟩
  leads := by
    intro d hd
    rcases List.mem_cons.mp hd with rfl | hd
    · exact ⟨v, hc, .single hvw⟩
    · obtain ⟨u, hu, hleads⟩ := h.leads d hd
      exact ⟨u, hu, .tail hleads hvw⟩

/-- Without a cycle the depth that is left is enough. -/
theorem isSome_snapshotWithin {depth : Nat} (h : Inside heap inside v)
    (hacyclic : ¬ ReachesCycle heap v) (hdepth : heap.containers < depth + inside.length) :
    (snapshotWithin heap depth inside v).isSome := by
  induction depth generalizing v inside with
  | zero =>
      have hle := h.length_le
      omega
  | succ depth ih =>
      cases hc : v.container? with
      | none => exact isSome_snapshotWithin_plain _ _ hc
      | some c =>
          rw [isSome_snapshotWithin_succ hc]
          have hnew := h.not_mem hacyclic hc
          refine ⟨hnew, fun w hvw => ?_⟩
          have hw : ¬ ReachesCycle heap w := fun hcycle => hacyclic (.of_holds hvw hcycle)
          exact ih (h.cons hc hnew hvw) hw (by simp only [List.length_cons]; omega)

end Inside

/-- A value has a snapshot exactly if it is no function and reaches no cycle. -/
theorem isSome_snapshot?_iff :
    (v.snapshot? heap).isSome ↔ v.isFunction = false ∧ ¬ ReachesCycle heap v := by
  unfold snapshot?
  by_cases hfunction : v.isFunction = true
  · simp [hfunction]
  · rw [if_neg hfunction]
    simp only [Bool.not_eq_true] at hfunction
    simp only [hfunction, true_and]
    constructor
    · intro hcopied hcycle
      exact hcycle.snapshotWithin_eq_none _ _ hcopied
    · intro hacyclic
      exact Inside.nil.isSome_snapshotWithin hacyclic (by simp)

end Value

end StepTrace
