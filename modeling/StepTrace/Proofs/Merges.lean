import StepTrace.Builtin.Sort

/-!
# Merges of sorted runs

What a merge sort makes of its runs is settled by the answers that its comparisons are given.
`Merged`, `PairsMerged` and `AllMerged` are the ways in which merging can go, with the comparisons
made on the way. No element is lost, whatever the answers are. If the answers are those of a strict
weak order, runs in order are merged into one in order, in which equivalent elements stand as they
did in the runs.

* `Comparison`: two elements and the answer.
* `WeakOrder`: what an order has to be like among some elements.
* `InOrder`, `SameTies`: sorted, and with the elements that tie in the same order.
-/

namespace StepTrace.Builtin

variable {α : Type}

/-! ## Ways to merge -/

/-- Two elements and whether the first was said to sort after the second. -/
structure Comparison (α : Type) where
  first : α
  second : α
  isAfter : Bool

/-- Two runs can be merged with these comparisons into a run. -/
inductive Merged : List α → List α → List (Comparison α) → List α → Prop
  | firstEmpty (ys : List α) : Merged [] ys [] ys
  | secondEmpty (xs : List α) : Merged xs [] [] xs
  | second {x y : α} {xs ys run : List α} {compared : List (Comparison α)}
    (h : Merged (x :: xs) ys compared run) :
    Merged (x :: xs) (y :: ys) (⟨x, y, true⟩ :: compared) (y :: run)
  | first {x y : α} {xs ys run : List α} {compared : List (Comparison α)}
    (h : Merged xs (y :: ys) compared run) :
    Merged (x :: xs) (y :: ys) (⟨x, y, false⟩ :: compared) (x :: run)

/-- Neighbouring runs can be merged with these comparisons. -/
inductive PairsMerged : List (List α) → List (Comparison α) → List (List α) → Prop
  | rest {runs : List (List α)} (h : runs.length ≤ 1) : PairsMerged runs [] runs
  | pair {first second run : List α} {rest merged : List (List α)}
    {compared others : List (Comparison α)} (hrun : Merged first second compared run)
    (hrest : PairsMerged rest others merged) :
    PairsMerged (first :: second :: rest) (compared ++ others) (run :: merged)

/-- The runs can be merged with these comparisons, round after round, until one is left. -/
inductive AllMerged : List (List α) → List (Comparison α) → List α → Prop
  | none : AllMerged [] [] []
  | one (run : List α) : AllMerged [run] [] run
  | round {runs merged : List (List α)} {compared others : List (Comparison α)} {result : List α}
    (hround : PairsMerged runs compared merged) (hothers : AllMerged merged others result) :
    AllMerged runs (compared ++ others) result

section Elements

variable {xs ys run result : List α} {runs merged : List (List α)}
  {compared : List (Comparison α)}

theorem Merged.perm (h : Merged xs ys compared run) : run.Perm (xs ++ ys) := by
  induction h with
  | firstEmpty ys => exact .refl ys
  | secondEmpty xs => rw [List.append_nil]
  | second _ ih => exact (ih.cons _).trans List.perm_middle.symm
  | first _ ih => exact ih.cons _

theorem PairsMerged.perm (h : PairsMerged runs compared merged) :
    merged.flatten.Perm runs.flatten := by
  induction h with
  | rest => exact .refl _
  | pair hrun _ ih =>
      rw [List.flatten_cons, List.flatten_cons, List.flatten_cons, ← List.append_assoc]
      exact hrun.perm.append ih

theorem AllMerged.perm (h : AllMerged runs compared result) : result.Perm runs.flatten := by
  induction h with
  | none => exact .refl _
  | one run => rw [List.flatten_singleton]
  | round hround _ ih => exact ih.trans hround.perm

/-- A round halves the number of runs. -/
theorem PairsMerged.length (h : PairsMerged runs compared merged) :
    merged.length = (runs.length + 1) / 2 := by
  induction h with
  | rest h => omega
  | pair _ _ ih =>
      simp only [List.length_cons, ih]
      omega

end Elements

/-! ## Orders -/

variable {after : α → α → Bool} {Among : α → Prop}

/-- Neither element sorts after the other. -/
def Tied (after : α → α → Bool) (a b : α) : Prop :=
  after a b = false ∧ after b a = false

instance (after : α → α → Bool) (a b : α) : Decidable (Tied after a b) :=
  inferInstanceAs (Decidable (_ ∧ _))

/-- Among these elements, sorting after one another is a strict weak order. -/
structure WeakOrder (after : α → α → Bool) (Among : α → Prop) : Prop where
  irrefl : ∀ a, Among a → after a a = false
  trans : ∀ a b c, Among a → Among b → Among c → after a b = true → after b c = true →
    after a c = true
  tied : ∀ a b c, Among a → Among b → Among c → Tied after a b → Tied after b c → Tied after a c

/-- No element sorts after a later one. -/
def InOrder (after : α → α → Bool) (items : List α) : Prop :=
  items.Pairwise fun a b => after a b = false

/-- The elements that tie with one another stand in the same order. -/
def SameTies (after : α → α → Bool) (Among : α → Prop) (items items' : List α) : Prop :=
  ∀ a, Among a → items.filter (Tied after a ·) = items'.filter (Tied after a ·)

/-- The comparisons were answered as the order has it. -/
def AnsweredBy (after : α → α → Bool) (compared : List (Comparison α)) : Prop :=
  ∀ c ∈ compared, c.isAfter = after c.first c.second

namespace WeakOrder

variable {a b c : α}

theorem asymm (h : WeakOrder after Among) (ha : Among a) (hb : Among b)
    (hab : after a b = true) : after b a = false := by
  cases hba : after b a with
  | false => rfl
  | true =>
      have hloop := h.trans a b a ha hb ha hab hba
      rw [h.irrefl a ha] at hloop
      cases hloop

/-- What does not sort after `b` does not sort after what `b` does not sort after. -/
theorem not_after_trans (h : WeakOrder after Among) (ha : Among a) (hb : Among b) (hc : Among c)
    (hab : after a b = false) (hbc : after b c = false) : after a c = false := by
  cases hac : after a c with
  | false => rfl
  | true =>
      -- otherwise `a` ties with `b` and `b` with `c`
      have hba : after b a = false := by
        cases hba : after b a with
        | false => rfl
        | true => rw [← hbc, h.trans b a c hb ha hc hba hac]
      have hcb : after c b = false := by
        cases hcb : after c b with
        | false => rfl
        | true => rw [← hab, h.trans a c b ha hc hb hac hcb]
      rw [← hac, (h.tied a b c ha hb hc ⟨hab, hba⟩ ⟨hbc, hcb⟩).1]

end WeakOrder

namespace SameTies

variable {items items' items'' more more' : List α}

theorem refl (items : List α) : SameTies after Among items items :=
  fun _ _ => rfl

theorem trans (h : SameTies after Among items items') (h' : SameTies after Among items' items'') :
    SameTies after Among items items'' :=
  fun a ha => (h a ha).trans (h' a ha)

theorem append (h : SameTies after Among items items') (h' : SameTies after Among more more') :
    SameTies after Among (items ++ more) (items' ++ more') := by
  intro a ha
  rw [List.filter_append, List.filter_append, h a ha, h' a ha]

theorem cons (h : SameTies after Among items items') (b : α) :
    SameTies after Among (b :: items) (b :: items') := by
  intro a ha
  rw [List.filter_cons, List.filter_cons, h a ha]

end SameTies

/-! ## Merges in order -/

section Order

variable {xs ys run result : List α} {runs merged : List (List α)}
  {compared others : List (Comparison α)} (horder : WeakOrder after Among)

theorem AnsweredBy.append_iff :
    AnsweredBy after (compared ++ others) ↔ AnsweredBy after compared ∧ AnsweredBy after others :=
  List.forall_mem_append

include horder

theorem Merged.inOrder (h : Merged xs ys compared run) (hanswers : AnsweredBy after compared)
    (hxs : ∀ x ∈ xs, Among x) (hys : ∀ y ∈ ys, Among y) (hx : InOrder after xs)
    (hy : InOrder after ys) : InOrder after run := by
  induction h with
  | firstEmpty => exact hy
  | secondEmpty => exact hx
  | @second x y xs ys run compared h ih =>
      obtain ⟨hanswer, hothers⟩ := List.forall_mem_cons.mp hanswers
      obtain ⟨hx₀, hxs₀⟩ := List.forall_mem_cons.mp hxs
      obtain ⟨hy₀, hys₀⟩ := List.forall_mem_cons.mp hys
      obtain ⟨hyfirst, hyrest⟩ := List.pairwise_cons.mp hy
      refine List.pairwise_cons.mpr ⟨fun z hz => ?_, ih hothers hxs hys₀ hx hyrest⟩
      -- the element `y` was taken since `x` sorts after it
      have hyx : after y x = false := horder.asymm hx₀ hy₀ hanswer.symm
      rcases List.mem_append.mp (h.perm.mem_iff.mp hz) with hz | hz
      · rcases List.mem_cons.mp hz with rfl | hz
        · exact hyx
        · exact horder.not_after_trans hy₀ hx₀ (hxs₀ z hz) hyx
            ((List.pairwise_cons.mp hx).1 z hz)
      · exact hyfirst z hz
  | @first x y xs ys run compared h ih =>
      obtain ⟨hanswer, hothers⟩ := List.forall_mem_cons.mp hanswers
      obtain ⟨hx₀, hxs₀⟩ := List.forall_mem_cons.mp hxs
      obtain ⟨hy₀, hys₀⟩ := List.forall_mem_cons.mp hys
      obtain ⟨hxfirst, hxrest⟩ := List.pairwise_cons.mp hx
      refine List.pairwise_cons.mpr ⟨fun z hz => ?_, ih hothers hxs₀ hys hxrest hy⟩
      have hxy : after x y = false := hanswer.symm
      rcases List.mem_append.mp (h.perm.mem_iff.mp hz) with hz | hz
      · exact hxfirst z hz
      · rcases List.mem_cons.mp hz with rfl | hz
        · exact hxy
        · exact horder.not_after_trans hx₀ hy₀ (hys₀ z hz) hxy
            ((List.pairwise_cons.mp hy).1 z hz)

/-- An element that is taken from the second run ties with none that is left of the first one. -/
theorem filter_tied_eq_nil {a y x : α} (ha : Among a) (hxs : ∀ z ∈ x :: xs, Among z)
    (hy : Among y) (hx : InOrder after (x :: xs)) (hxy : after x y = true)
    (htied : Tied after a y) : (x :: xs).filter (Tied after a ·) = [] := by
  rw [List.filter_eq_nil_iff]
  intro z hz hza
  have hza : Tied after a z := of_decide_eq_true hza
  have hx₀ : Among x := hxs x List.mem_cons_self
  -- `z` ties with `y`, so `x` would sort after `z`
  have hzy : after z y = false :=
    (horder.tied z a y (hxs z hz) ha hy ⟨hza.2, hza.1⟩ htied).1
  have hxz : after x z = false := by
    rcases List.mem_cons.mp hz with rfl | hz
    · exact horder.irrefl z hx₀
    · exact (List.pairwise_cons.mp hx).1 z hz
  rw [horder.not_after_trans hx₀ (hxs z hz) hy hxz hzy] at hxy
  cases hxy

theorem Merged.sameTies (h : Merged xs ys compared run) (hanswers : AnsweredBy after compared)
    (hxs : ∀ x ∈ xs, Among x) (hys : ∀ y ∈ ys, Among y) (hx : InOrder after xs) :
    SameTies after Among run (xs ++ ys) := by
  induction h with
  | firstEmpty ys => exact .refl ys
  | secondEmpty xs => rw [List.append_nil]; exact .refl xs
  | @second x y xs ys run compared h ih =>
      obtain ⟨hanswer, hothers⟩ := List.forall_mem_cons.mp hanswers
      obtain ⟨hy₀, hys₀⟩ := List.forall_mem_cons.mp hys
      intro a ha
      have hrun := ih hothers hxs hys₀ hx a ha
      rw [List.filter_append] at hrun ⊢
      by_cases htied : Tied after a y
      · have hnone := filter_tied_eq_nil horder ha hxs hy₀ hx hanswer.symm htied
        rw [hnone, List.nil_append] at hrun ⊢
        rw [List.filter_cons, List.filter_cons, hrun]
      · have hskip (rest : List α) :
            (y :: rest).filter (Tied after a ·) = rest.filter (Tied after a ·) :=
          List.filter_cons_of_neg (by simpa using htied)
        rw [hskip, hskip, hrun]
  | @first x y xs ys run compared h ih =>
      obtain ⟨-, hothers⟩ := List.forall_mem_cons.mp hanswers
      exact (ih hothers (List.forall_mem_cons.mp hxs).2 hys (List.pairwise_cons.mp hx).2).cons x

theorem PairsMerged.inOrder (h : PairsMerged runs compared merged)
    (hanswers : AnsweredBy after compared) (hruns : ∀ run ∈ runs, ∀ a ∈ run, Among a)
    (hsorted : ∀ run ∈ runs, InOrder after run) :
    (∀ run ∈ merged, InOrder after run) ∧ SameTies after Among merged.flatten runs.flatten := by
  induction h with
  | rest => exact ⟨hsorted, .refl _⟩
  | @pair first second run rest merged compared others hrun hrest ih =>
      obtain ⟨hfirst, hsecond, hothers⟩ := by simpa only [List.forall_mem_cons] using hruns
      obtain ⟨hfirst', hsecond', hothers'⟩ := by simpa only [List.forall_mem_cons] using hsorted
      obtain ⟨hcompared, hanswers⟩ := AnsweredBy.append_iff.mp hanswers
      obtain ⟨hmerged, hties⟩ := ih hanswers hothers hothers'
      refine ⟨List.forall_mem_cons.mpr
        ⟨hrun.inOrder horder hcompared hfirst hsecond hfirst' hsecond', hmerged⟩, ?_⟩
      rw [List.flatten_cons, List.flatten_cons, List.flatten_cons, ← List.append_assoc]
      exact (hrun.sameTies horder hcompared hfirst hsecond hfirst').append hties

theorem AllMerged.inOrder (h : AllMerged runs compared result)
    (hanswers : AnsweredBy after compared) (hruns : ∀ a ∈ runs.flatten, Among a)
    (hsorted : ∀ run ∈ runs, InOrder after run) :
    InOrder after result ∧ SameTies after Among result runs.flatten := by
  induction h with
  | none => exact ⟨List.Pairwise.nil, .refl _⟩
  | one run => exact ⟨hsorted run List.mem_cons_self, by rw [List.flatten_singleton]; exact .refl _⟩
  | round hround _ ih =>
      obtain ⟨hcompared, hothers⟩ := AnsweredBy.append_iff.mp hanswers
      obtain ⟨hmerged, hties⟩ := hround.inOrder horder hcompared
        (fun run hrun a ha => hruns a (List.mem_flatten.mpr ⟨run, hrun, ha⟩)) hsorted
      obtain ⟨hresult, hties'⟩ := ih hothers (fun a ha => hruns a (hround.perm.mem_iff.mp ha))
        hmerged
      exact ⟨hresult, hties'.trans hties⟩

end Order

end StepTrace.Builtin
