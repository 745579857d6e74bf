import StepTrace.Proofs.Correspondence
import StepTrace.Proofs.Ends
import StepTrace.Proofs.Merges
import Mathlib.Algebra.Group.Nat.Defs
import Mathlib.Data.Nat.Log

/-!
# The comparisons of a sort

A sort whose comparisons have effects does nothing to the state by itself: each comparison begins
in the state in which the one before it ended, the sort ends in the state behind the last one, and
it stops only where a comparison stops. The comparisons are those of a way to merge, and there are
at most as many as a balanced merge sort may make (`compares_mergeSort`).

* `Compared`: comparisons one after the other.
* `Compares`: what a computation that does nothing but compare makes of a state.
-/

namespace StepTrace

variable {α β : Type}

namespace Builtin

/-- The comparisons were made one after the other, with nothing in between. -/
inductive Compared (after : Value → Value → Eval Bool) (Among : Value → Prop) :
    State → List (Comparison Value) → State → Prop
  | none (s : State) : Compared after Among s [] s
  | more {s s' s'' : State} {a b : Value} {isAfter : Bool} {others : List (Comparison Value)}
    (ha : Among a) (hb : Among b) (h : (after a b s).MayEnd isAfter s')
    (hothers : Compared after Among s' others s'') :
    Compared after Among s (⟨a, b, isAfter⟩ :: others) s''

/-- Behind fewer than so many comparisons another one was stopped. -/
def CutShort (after : Value → Value → Eval Bool) (Among : Value → Prop) (most : Nat) (s : State)
    (stop : Stop) (s' : State) : Prop :=
  ∃ compared s₁ a b, Compared after Among s compared s₁ ∧ compared.length < most ∧ Among a ∧
    Among b ∧ (after a b s₁).MayStop stop s'

/-- The computation only compares, at most so many times, and what it comes to is `good` for the
comparisons. -/
def Compares (after : Value → Value → Eval Bool) (Among : Value → Prop) (most : Nat)
    (good : α → List (Comparison Value) → Prop) (m : Eval α) : Prop :=
  ∀ s, (m s).Ends
    (fun a s' => ∃ compared, Compared after Among s compared s' ∧ compared.length ≤ most ∧
      good a compared)
    (CutShort after Among most s)

variable {after : Value → Value → Eval Bool} {Among : Value → Prop} {most most' : Nat}
  {good good' : α → List (Comparison Value) → Prop} {m : Eval α} {s s' s'' : State}
  {compared others : List (Comparison Value)} {stop : Stop}

namespace Compared

theorem append (h : Compared after Among s compared s')
    (hothers : Compared after Among s' others s'') :
    Compared after Among s (compared ++ others) s'' := by
  induction h with
  | none => exact hothers
  | more ha hb hend _ ih => exact .more ha hb hend (ih hothers)

theorem among (h : Compared after Among s compared s') :
    ∀ c ∈ compared, Among c.first ∧ Among c.second := by
  induction h with
  | none => exact List.forall_mem_nil _
  | more ha hb _ _ ih => exact List.forall_mem_cons.mpr ⟨⟨ha, hb⟩, ih⟩

end Compared

theorem CutShort.behind (h : Compared after Among s compared s') (hcount : compared.length ≤ most)
    (hcut : CutShort after Among most' s' stop s'') :
    CutShort after Among (most + most') s stop s'' := by
  obtain ⟨others, s₁, a, b, hothers, hlength, ha, hb, hstop⟩ := hcut
  refine ⟨compared ++ others, s₁, a, b, h.append hothers, ?_, ha, hb, hstop⟩
  rw [List.length_append]
  omega

namespace Compares

theorem mono (h : Compares after Among most good m) (hmost : most ≤ most')
    (hgood : ∀ a compared, good a compared → good' a compared) :
    Compares after Among most' good' m := by
  refine fun s => (h s).mono (fun a s' hend => ?_) fun stop s' hcut => ?_
  · obtain ⟨compared, hcompared, hcount, ha⟩ := hend
    exact ⟨compared, hcompared, Nat.le_trans hcount hmost, hgood a compared ha⟩
  · obtain ⟨compared, s₁, a, b, hcompared, hcount, hrest⟩ := hcut
    exact ⟨compared, s₁, a, b, hcompared, Nat.lt_of_lt_of_le hcount hmost, hrest⟩

theorem pure {a : α} (h : good a []) : Compares after Among 0 good (pure a) :=
  fun s => ⟨[], .none s, Nat.le_refl 0, h⟩

theorem bind {f : α → Eval β} {good' : β → List (Comparison Value) → Prop}
    (h : Compares after Among most good m)
    (hf : ∀ a compared, good a compared →
      Compares after Among most' (fun b others => good' b (compared ++ others)) (f a)) :
    Compares after Among (most + most') good' (m >>= f) := by
  intro s
  refine Process.Ends.bind ((h s).mono (fun a s' h => h) fun stop s' hcut => ?_) ?_
  · obtain ⟨compared, s₁, a, b, hcompared, hcount, hrest⟩ := hcut
    exact ⟨compared, s₁, a, b, hcompared, by omega, hrest⟩
  · rintro a s' ⟨compared, hcompared, hcount, ha⟩
    refine (hf a compared ha s').mono (fun b s'' hend => ?_) fun stop s'' hcut => ?_
    · obtain ⟨others, hothers, hcount', hb⟩ := hend
      refine ⟨compared ++ others, hcompared.append hothers, ?_, hb⟩
      rw [List.length_append]
      omega
    · exact hcut.behind hcompared hcount

theorem compare {a b : Value} (ha : Among a) (hb : Among b) :
    Compares after Among 1 (fun isAfter compared => compared = [⟨a, b, isAfter⟩]) (after a b) := by
  intro s
  refine (Process.ends_may _).mono (fun isAfter s' hend => ?_) fun stop s' hstop => ?_
  · exact ⟨_, .more ha hb hend (.none s'), Nat.le_refl 1, rfl⟩
  · exact ⟨[], s, a, b, .none s, Nat.zero_lt_one, ha, hb, hstop⟩

theorem map {f : α → β} {good' : β → List (Comparison Value) → Prop}
    (h : Compares after Among most good m)
    (hgood : ∀ a compared, good a compared → good' (f a) compared) :
    Compares after Among most good' (m >>= fun a => Pure.pure (f a)) :=
  h.bind fun a compared ha => .pure (by rw [List.append_nil]; exact hgood a compared ha)

end Compares

/-! ## Merging -/

theorem compares_mergeRuns (xs ys : List Value) (h : ∀ a ∈ xs ++ ys, Among a) :
    Compares after Among (xs.length + ys.length) (fun run compared => Merged xs ys compared run)
      (mergeRuns after xs ys) := by
  fun_induction mergeRuns after xs ys with
  | case1 ys => exact (Compares.pure (.firstEmpty ys)).mono (Nat.zero_le _) fun _ _ => id
  | case2 xs hxs => exact (Compares.pure (.secondEmpty xs)).mono (Nat.zero_le _) fun _ _ => id
  | case3 x xs y ys ih1 ih2 =>
      have hx : Among x := h x (by simp)
      have hy : Among y := h y (by simp)
      obtain ⟨hxs, hys⟩ := List.forall_mem_append.mp h
      have hsecond : ∀ a ∈ x :: xs ++ ys, Among a :=
        List.forall_mem_append.mpr ⟨hxs, (List.forall_mem_cons.mp hys).2⟩
      have hfirst : ∀ a ∈ xs ++ y :: ys, Among a := fun a ha => h a (List.mem_cons_of_mem x ha)
      have hmost : 1 + (xs.length + ys.length + 1) ≤ (x :: xs).length + (y :: ys).length := by
        simp only [List.length_cons]
        omega
      refine (Compares.bind (Compares.compare hx hy) fun isAfter compared hcompared => ?_).mono
        hmost fun _ _ => id
      subst hcompared
      cases isAfter with
      | true =>
          refine (Compares.map (ih1 hsecond) fun run others hrun => ?_).mono ?_ fun _ _ => id
          · exact .second hrun
          · simp only [List.length_cons]
            omega
      | false =>
          refine (Compares.map (ih2 hfirst) fun run others hrun => ?_).mono ?_ fun _ _ => id
          · exact .first hrun
          · simp only [List.length_cons]
            omega

theorem compares_mergeNeighbours (runs : List (List Value)) (h : ∀ a ∈ runs.flatten, Among a) :
    Compares after Among runs.flatten.length
      (fun merged compared => PairsMerged runs compared merged) (mergeNeighbours after runs) := by
  fun_induction mergeNeighbours after runs with
  | case1 first second rest ih =>
      rw [List.flatten_cons, List.flatten_cons, ← List.append_assoc, List.length_append,
        List.length_append] at *
      obtain ⟨hrun, hrest⟩ := List.forall_mem_append.mp h
      refine (compares_mergeRuns first second hrun).bind fun run compared hmerged => ?_
      exact (ih hrest).map fun merged others hothers => .pair hmerged hothers
  | case2 runs hruns =>
      refine (Compares.pure (.rest ?_)).mono (Nat.zero_le _) fun _ _ => id
      rcases runs with _ | ⟨run, _ | ⟨second, rest⟩⟩
      · exact Nat.zero_le 1
      · exact Nat.le_refl 1
      · exact absurd rfl (hruns run second rest)

theorem two_le_length {runs : List (List α)} (hnil : ¬ runs = [])
    (hone : ∀ run, ¬ runs = [run]) : 2 ≤ runs.length := by
  rcases runs with _ | ⟨run, _ | ⟨second, rest⟩⟩
  · exact absurd rfl hnil
  · exact absurd rfl (hone run)
  · simp

/-- With at most `2 ^ depth` runs there are at most `depth` rounds, each of which compares every
element at most once. -/
theorem compares_mergeAll {depth rounds : Nat} (runs : List (List Value))
    (h : ∀ a ∈ runs.flatten, Among a) (hruns : runs.length ≤ 2 ^ depth) (hdepth : depth ≤ rounds) :
    Compares after Among (depth * runs.flatten.length)
      (fun result compared => AllMerged runs compared result) (mergeAll after rounds runs) := by
  fun_induction mergeAll after rounds runs generalizing depth with
  | case1 => exact (Compares.pure .none).mono (Nat.zero_le _) fun _ _ => id
  | case2 rounds run => exact (Compares.pure (.one run)).mono (Nat.zero_le _) fun _ _ => id
  | case3 runs hnil hone =>
      obtain rfl : depth = 0 := Nat.le_zero.mp hdepth
      exact absurd (two_le_length hnil hone) (by omega)
  | case4 rounds runs hnil hone ih =>
      have htwo := two_le_length hnil hone
      obtain ⟨depth, rfl⟩ : ∃ n, depth = n + 1 := by
        refine Nat.exists_eq_succ_of_ne_zero ?_
        rintro rfl
        omega
      rw [Nat.succ_mul, Nat.add_comm]
      refine (compares_mergeNeighbours runs h).bind fun merged compared hmerged => ?_
      have hperm := hmerged.perm
      have hlength : merged.length ≤ 2 ^ depth := by
        rw [hmerged.length]
        rw [Nat.pow_succ] at hruns
        omega
      have hmerged' : ∀ a ∈ merged.flatten, Among a := fun a ha => h a (hperm.mem_iff.mp ha)
      have hrest := ih merged hmerged' hlength (Nat.le_of_succ_le_succ hdepth)
      rw [hperm.length_eq] at hrest
      exact hrest.mono (Nat.le_refl _) fun result others => .round hmerged

/-- A merge sort makes at most as many comparisons as there are elements, times the rounds that a
balanced one needs. -/
theorem compares_mergeSort (items : List Value) (h : ∀ a ∈ items, Among a) :
    Compares after Among (items.length * Nat.clog 2 items.length)
      (fun sorted compared => AllMerged (items.map fun item => [item]) compared sorted)
      (mergeSort after items) := by
  have hflatten : (items.map fun item => [item]).flatten = items := by
    rw [← List.flatMap_def, List.flatMap_singleton']
  have hruns : (items.map fun item => [item]).length ≤ 2 ^ Nat.clog 2 items.length := by
    rw [List.length_map]
    exact Nat.le_pow_clog Nat.one_lt_two items.length
  have hrounds : Nat.clog 2 items.length ≤ items.length :=
    Nat.clog_le_of_le_pow (Nat.le_of_lt Nat.lt_two_pow_self)
  have hall : Compares after Among _ _ (mergeAll after items.length _) :=
    compares_mergeAll (items.map fun item => [item]) (by rwa [hflatten]) hruns hrounds
  rwa [hflatten, Nat.mul_comm] at hall

end Builtin

end StepTrace
