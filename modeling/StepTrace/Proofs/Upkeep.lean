import StepTrace.Proofs.Correspondence
import StepTrace.Proofs.Ends

/-!
# What a run keeps up under a condition

What a run is meant to keep up it may keep up only as long as certain moments on record fit: no
operation has seen to them. Whether all moments fit is known at the end of the run alone. So what
is known of a value or of a state on the way is carried along under that condition.

* `Upkeep`: what is kept up, and the condition.
* `Upkeep.Kept`: what is known of a state if it is known of an earlier one.
* `Upkeep.Keeps`: what a computation makes of a state, with a precondition and a postcondition.
-/

namespace StepTrace

open Syntax (Location)

variable {α β : Type}

/-- What is to be so of the environment and the heap of a run at any time and of every event on
record, and the condition on moments under which the run keeps it so. Of closures it is so under no
condition, since they are made of the text of the program. -/
structure Upkeep where
  OfEnv : Environment → Prop
  OfHeap : Heap → Prop
  OfEvent : Event → Prop
  OfClosure : Closure → Prop
  Fits : Moment → Prop
  changed : OfEvent .changed

namespace Upkeep

variable (C : Upkeep)

/-- It is so at the moment. -/
structure At (moment : Moment) : Prop where
  env : C.OfEnv moment.env
  heap : C.OfHeap moment.heap
  event : C.OfEvent moment.event

/-- It is so in the state, and has always been so. -/
structure Holds (s : State) : Prop where
  env : C.OfEnv s.env
  heap : C.OfHeap s.heap
  past : ∀ moment ∈ s.past.get, C.At moment

/-- It is so of all closures. -/
def OfClosures (s : State) : Prop :=
  ∀ closure ∈ s.closures, C.OfClosure closure

/-- From the first state to the second nothing was forgotten. Under the condition `known`, if it
was so in the first state and all moments up to the second fit, then it is so in the second, and
`good` holds. -/
structure Kept (known good : Prop) (s s' : State) : Prop where
  past : ∀ moment ∈ s.past.get, moment ∈ s'.past.get
  closures : C.OfClosures s → C.OfClosures s'
  holds : known → C.Holds s → (∀ moment ∈ s'.past.get, C.Fits moment) → C.Holds s' ∧ good

variable {C}

namespace Kept

variable {known known' good good' : Prop} {s s' s'' : State}

theorem refl (h : known → C.Holds s → good) : C.Kept known good s s :=
  ⟨fun _ hmoment => hmoment, id, fun hknown hs _ => ⟨hs, h hknown hs⟩⟩

theorem trans (h : C.Kept known good s s') (h' : C.Kept (known ∧ good) good' s' s'') :
    C.Kept known good' s s'' := by
  refine ⟨fun moment hmoment => h'.past moment (h.past moment hmoment),
    fun hclosures => h'.closures (h.closures hclosures), fun hknown hs hfits => ?_⟩
  have hbefore : ∀ moment ∈ s'.past.get, C.Fits moment :=
    fun moment hmoment => hfits moment (h'.past moment hmoment)
  obtain ⟨hs', hgood⟩ := h.holds hknown hs hbefore
  exact h'.holds ⟨hknown, hgood⟩ hs' hfits

theorem mono (h : C.Kept known good s s') (hknown : known' → known)
    (hgood : known' → good → good') : C.Kept known' good' s s' := by
  refine ⟨h.past, h.closures, fun hknown' hs hfits => ?_⟩
  obtain ⟨hs', h⟩ := h.holds (hknown hknown') hs hfits
  exact ⟨hs', hgood hknown' h⟩

/-- It has to be so behind everything that was put on record besides. -/
theorem of_past (moments : List Moment) (hpast : s'.past.get = s.past.get ++ moments)
    (hclosures : C.OfClosures s → C.OfClosures s')
    (h : known → C.Holds s → (∀ moment ∈ moments, C.Fits moment) →
      C.OfEnv s'.env ∧ C.OfHeap s'.heap ∧ (∀ moment ∈ moments, C.At moment) ∧ good) :
    C.Kept known good s s' := by
  refine ⟨fun moment hmoment => ?_, hclosures, fun hknown hs hfits => ?_⟩
  · rw [hpast]
    exact List.mem_append_left _ hmoment
  · obtain ⟨henv, hheap, hmoments, hgood⟩ := h hknown hs fun moment hmoment =>
      hfits moment (by rw [hpast]; exact List.mem_append_right _ hmoment)
    refine ⟨⟨henv, hheap, fun moment hmoment => ?_⟩, hgood⟩
    rw [hpast] at hmoment
    exact (List.mem_append.mp hmoment).elim (hs.past moment) (hmoments moment)

/-- One event, behind which it is so if it fits. -/
theorem record (event : Event) (hpast : s'.past.get = s.past.get ++ [⟨event, s'.env, s'.heap⟩])
    (hclosures : C.OfClosures s → C.OfClosures s')
    (h : known → C.Holds s → C.Fits ⟨event, s'.env, s'.heap⟩ →
      C.OfEnv s'.env ∧ C.OfHeap s'.heap ∧ C.OfEvent event ∧ good) :
    C.Kept known good s s' := by
  refine of_past _ hpast hclosures fun hknown hs hfits => ?_
  obtain ⟨henv, hheap, hevent, hgood⟩ := h hknown hs (hfits _ (List.mem_singleton_self _))
  refine ⟨henv, hheap, fun moment hmoment => ?_, hgood⟩
  obtain rfl := List.mem_singleton.mp hmoment
  exact ⟨henv, hheap, hevent⟩

theorem recorded (s : State) {event : Event} (h : known → C.OfEvent event) :
    C.Kept known True s (s.record event) :=
  record event (by simp [State.record]) id fun hknown hs _ => ⟨hs.env, hs.heap, h hknown, trivial⟩

theorem changeEnv (s : State) {change : Environment → Environment}
    (h : known → C.OfEnv s.env → C.OfEnv (change s.env)) :
    C.Kept known True s (s.changeEnv change) :=
  record .changed (by simp [State.changeEnv, State.record]) id fun hknown hs _ =>
    ⟨h hknown hs.env, hs.heap, C.changed, trivial⟩

theorem changeHeap (s : State) {change : Heap → Heap}
    (h : known → C.OfHeap s.heap → C.OfHeap (change s.heap)) :
    C.Kept known True s (s.changeHeap change) :=
  record .changed (by simp [State.changeHeap, State.record]) id fun hknown hs _ =>
    ⟨hs.env, h hknown hs.heap, C.changed, trivial⟩

end Kept

/-! ## Computations -/

variable (C) in
/-- If `known` holds, what is kept up in a state is kept up by the computation, as long as all
moments fit, and it ends with a value that is `good`. -/
def Keeps (known : Prop) (good : α → Prop) (m : Eval α) : Prop :=
  ∀ s, C.OfClosures s →
    (m s).Ends (fun a s' => C.Kept known (good a) s s') fun _ s' => C.Kept known True s s'

namespace Keeps

variable {known known' : Prop} {good good' : α → Prop} {m : Eval α} {loc : Location}

theorem mono (h : C.Keeps known good m) (hknown : known' → known)
    (hgood : ∀ a, known' → good a → good' a) : C.Keeps known' good' m :=
  fun s hs =>
    (h s hs).mono (fun a _ h => h.mono hknown (hgood a)) fun _ _ h => h.mono hknown fun _ => id

theorem under (h : C.Keeps known good m) (hknown : known' → known) : C.Keeps known' good m :=
  h.mono hknown fun _ _ => id

theorem weaken (h : C.Keeps True good m) : C.Keeps known good m :=
  h.under fun _ => trivial

theorem pure {a : α} (h : known → good a) : C.Keeps known good (pure a) :=
  fun _ _ => Kept.refl fun hknown _ => h hknown

/-- What the first computation ends with is known in the second. -/
theorem bind {f : α → Eval β} {good' : β → Prop} (hm : C.Keeps known good m)
    (hf : ∀ a, C.Keeps (known ∧ good a) good' (f a)) : C.Keeps known good' (m >>= f) := by
  intro s hs
  rw [Eval.bind_apply]
  have hends : (m s).Ends (fun a s' => C.Kept known (good a) s s')
      fun _ s' => C.Kept known True s s' := hm s hs
  refine hends.andThen fun a s' h => ?_
  exact (hf a s' (h.closures hs)).mono (fun b _ h' => h.trans h') fun _ _ h' => h.trans h'

/-- Nothing is known of what the first computation ends with. -/
theorem seq {f : α → Eval β} {good' : β → Prop} (hm : C.Keeps True (fun _ => True) m)
    (hf : ∀ a, C.Keeps known good' (f a)) : C.Keeps known good' (m >>= f) :=
  hm.weaken.bind fun a => (hf a).under And.left

theorem stop (stop : Stop) : C.Keeps known good (Eval.stop stop) :=
  fun _ _ => Kept.refl fun _ _ => trivial

theorem raise (loc : Location) (cause : Cause) : C.Keeps known good (Eval.raise loc cause) :=
  stop _

theorem allow {admitted : Except Cause α} (h : known → ∀ a, admitted = .ok a → good a) :
    C.Keeps known good (Eval.allow loc admitted) := by
  cases admitted with
  | ok a => exact pure fun hknown => h hknown a rfl
  | error cause => exact raise loc cause

theorem ask {question : Environment → Heap → α}
    (h : known → ∀ env heap, C.OfEnv env → C.OfHeap heap → good (question env heap)) :
    C.Keeps known good (Eval.ask question) :=
  fun s _ => Kept.refl fun hknown hs => h hknown s.env s.heap hs.env hs.heap

theorem consult {question : Heap → α} (h : known → ∀ heap, C.OfHeap heap → good (question heap)) :
    C.Keeps known good (Eval.consult question) :=
  ask fun hknown _ heap _ => h hknown heap

theorem consultAt {question : Heap → Except Cause α}
    (h : known → ∀ heap, C.OfHeap heap → ∀ a, question heap = .ok a → good a) :
    C.Keeps known good (Eval.consultAt loc question) := by
  have hquestion : C.Keeps known (fun admitted => ∀ a, admitted = .ok a → good a)
      (Eval.consult question) := consult h
  exact hquestion.bind fun admitted => allow And.right

theorem changeEnv {change : Environment → Environment}
    (h : known → ∀ env, C.OfEnv env → C.OfEnv (change env)) :
    C.Keeps known (fun _ => True) (Eval.changeEnv change) :=
  fun s _ => Kept.changeEnv s fun hknown => h hknown s.env

theorem changeHeap {change : Heap → Heap}
    (h : known → ∀ heap, C.OfHeap heap → C.OfHeap (change heap)) :
    C.Keeps known (fun _ => True) (Eval.changeHeap change) :=
  fun s _ => Kept.changeHeap s fun hknown => h hknown s.heap

theorem record {event : Event} {a : α} (h : known → C.OfEvent event) (ha : known → good a) :
    C.Keeps known good fun s => .done a (s.record event) :=
  fun s _ => (Kept.recorded s h).mono id fun hknown _ => ha hknown

theorem write {decide : Heap → Except Cause Write}
    (h : known → ∀ heap, C.OfHeap heap → ∀ write, decide heap = .ok write →
      C.OfHeap (heap.perform write)) :
    C.Keeps known (fun _ => True) (Eval.write loc decide) := by
  intro s hs
  unfold Eval.write Eval.consultAt
  rw [bind_assoc, Eval.bind_apply]
  change Process.Ends _ _ ((Eval.allow loc (decide s.heap) >>= fun change =>
    Eval.changeHeap (·.perform change)) s)
  cases hdecide : decide s.heap with
  | error cause => exact Kept.refl fun _ _ => trivial
  | ok change => exact Kept.changeHeap s fun hknown hheap => h hknown _ hheap change hdecide

theorem newArray {good : Value → Prop} {items : Array Value}
    (h : known → ∀ heap, C.OfHeap heap → C.OfHeap (heap.addArray items))
    (hgood : ∀ place, good (.array place)) : C.Keeps known good (Eval.newArray items) := by
  have hplace : C.Keeps True (fun _ => True) (Eval.consult (·.arrays.size)) :=
    consult fun _ _ _ => trivial
  exact hplace.seq fun place => (changeHeap h).bind fun _ => pure fun _ => hgood place

theorem newObject {good : Value → Prop} {fields : Fields}
    (h : known → ∀ heap, C.OfHeap heap → C.OfHeap (heap.addObject fields))
    (hgood : ∀ place, good (.object place)) : C.Keeps known good (Eval.newObject fields) := by
  have hplace : C.Keeps True (fun _ => True) (Eval.consult (·.objects.size)) :=
    consult fun _ _ _ => trivial
  exact hplace.seq fun place => (changeHeap h).bind fun _ => pure fun _ => hgood place

theorem newClosure {good : Value → Prop} {f : Syntax.Function}
    (hf : ∀ scope, C.OfClosure ⟨f, scope⟩)
    (h : ∀ heap, C.OfHeap heap → C.OfHeap (heap.addFunction f.name))
    (hgood : ∀ place, good (.function place)) : C.Keeps known good (Eval.newClosure f) := by
  intro s _
  refine Kept.record .changed (by simp [State.addClosure, State.record])
    (fun hs closure hclosure => ?_) fun _ hs _ => ⟨hs.env, h s.heap hs.heap, C.changed, hgood _⟩
  rcases Array.mem_push.mp hclosure with hold | rfl
  · exact hs closure hold
  · exact hf _

/-- What is done with a closure has to be known for those of which it is so. -/
theorem closureAt {place : Nat} {f : Option Closure → Eval α} (hnone : C.Keeps known good (f none))
    (hsome : ∀ closure, C.OfClosure closure → C.Keeps known good (f (some closure))) :
    C.Keeps known good (Eval.closureAt place >>= f) := by
  intro s hs
  rw [Eval.bind_apply]
  change Process.Ends _ _ (f s.closures[place]? s)
  cases hfound : s.closures[place]? with
  | none => exact hnone s hs
  | some closure => exact hsome closure (hs closure (Array.mem_of_getElem? hfound)) s hs

/-- The elements of an array are changed. -/
theorem changed {good : Value → Prop} (array : Nat) {change : Array Value → Array Value}
    (h : known → ∀ heap, C.OfHeap heap → C.OfHeap (heap.onArray array change))
    (hgood : good (.array array)) : C.Keeps known good (Builtin.changed array change) :=
  (changeHeap h).bind fun _ => pure fun _ => hgood

/-- A computation behind which the environment is changed, also if it stops. -/
theorem leaving {leave : Environment → Environment} (h : C.Keeps known good m)
    (hleave : ∀ env, C.OfEnv env → C.OfEnv (leave env)) :
    C.Keeps known good (Eval.leaving leave m) := by
  intro s hs
  have hleft (s' : State) : C.Kept True True s' (s'.changeEnv leave) :=
    .changeEnv s' fun _ => hleave s'.env
  have hends := (h s hs).mono
    (fun a s' h => h.trans ((hleft s').mono (fun _ => trivial) fun hknown _ => hknown.2))
    fun _ s' h => h.trans ((hleft s').mono (fun _ => trivial) fun _ => id)
  exact hends.leaving

/-- If all moments of a run fit, it is so at the end of the run. -/
theorem run {m : Eval Unit} {good : Unit → Prop} (h : C.Keeps True good m) {s : State}
    (hclosures : C.OfClosures s) (hs : C.Holds s) (allowance : Option Nat) (trace : Trace)
    (hfits : ∀ moment ∈ ((m s).run allowance trace).final.past.get, C.Fits moment) :
    C.Holds ((m s).run allowance trace).final := by
  have hends := (h s hclosures).run allowance trace
  split at hends
  · exact (hends.holds trivial hs hfits).1
  · exact (hends.holds trivial hs hfits).1

/-- Only what the consumer takes is put on record. -/
theorem capture (names : List String) (line : Nat) (h : ∀ step, C.OfEvent (.taken step)) :
    C.Keeps known (fun _ => True) (Eval.capture names line) := by
  have hstep : C.Keeps known (fun _ => True) (Eval.ask (Step.observe names line)) :=
    ask fun _ _ _ _ _ => trivial
  refine hstep.bind fun step s hs => ?_
  rintro (_ | _)
  · exact Kept.refl fun _ _ => trivial
  · exact Kept.recorded s fun _ => h step

theorem complete (stmt : Syntax.Stmt) (rest : List Syntax.Stmt)
    (h : ∀ line captured, C.OfEvent (.completed line captured)) :
    C.Keeps known (fun _ => True) (Eval.complete stmt rest) := by
  intro s hs
  unfold Eval.complete
  split
  · exact Kept.recorded s fun _ => h _ _
  · exact Kept.refl fun _ _ => trivial

end Keeps

/-! ## Sorting -/

section Sorting

open Builtin

variable {P : Value → Prop} {after : Value → Value → Eval Bool}
  (h : ∀ a b, C.Keeps (P a ∧ P b) (fun _ => True) (after a b))
include h

theorem keeps_mergeRuns (xs ys : List Value) :
    C.Keeps (∀ value ∈ xs ++ ys, P value) (fun run => run.Perm (xs ++ ys))
      (mergeRuns after xs ys) := by
  fun_induction mergeRuns after xs ys with
  | case1 ys => exact .pure fun _ => .refl ys
  | case2 xs hxs => exact .pure fun _ => by rw [List.append_nil]
  | case3 x xs y ys ih1 ih2 =>
      have hcompare : C.Keeps (∀ value ∈ x :: xs ++ y :: ys, P value) (fun _ => True) (after x y) :=
        (h x y).under fun hall => ⟨hall x (by simp), hall y (by simp)⟩
      refine hcompare.bind fun isAfter => ?_
      split
      · have hrest : ∀ value ∈ x :: xs ++ ys, value ∈ x :: xs ++ y :: ys := fun value hvalue =>
          (List.mem_append.mp hvalue).elim (List.mem_append_left _)
            fun hys => List.mem_append_right _ (List.mem_cons_of_mem y hys)
        refine (ih1.under fun hall value hvalue => hall.1 value (hrest value hvalue)).bind
          fun run => .pure fun hrun => ?_
        exact (hrun.2.cons y).trans List.perm_middle.symm
      · refine (ih2.under fun hall value hvalue => ?_).bind fun run => .pure fun hrun => ?_
        · exact hall.1 value (List.mem_cons_of_mem x hvalue)
        · exact hrun.2.cons x

theorem keeps_mergeNeighbours (runs : List (List Value)) :
    C.Keeps (∀ value ∈ runs.flatten, P value) (fun merged => merged.flatten.Perm runs.flatten)
      (mergeNeighbours after runs) := by
  fun_induction mergeNeighbours after runs with
  | case1 first second rest ih =>
      rw [List.flatten_cons, List.flatten_cons, ← List.append_assoc]
      have hrun : C.Keeps (∀ value ∈ first ++ second ++ rest.flatten, P value)
          (fun run => run.Perm (first ++ second)) (mergeRuns after first second) :=
        (keeps_mergeRuns h first second).under
          fun hall value hvalue => hall value (List.mem_append_left _ hvalue)
      refine hrun.bind fun run => ?_
      refine (ih.under fun hall value hvalue => ?_).bind
        fun merged => .pure fun hmerged => ?_
      · exact hall.1 value (List.mem_append_right _ hvalue)
      · rw [List.flatten_cons]
        exact hmerged.1.2.append hmerged.2
  | case2 runs hruns => exact .pure fun _ => .refl _

theorem keeps_mergeAll (rounds : Nat) (runs : List (List Value)) :
    C.Keeps (∀ value ∈ runs.flatten, P value) (fun sorted => sorted.Perm runs.flatten)
      (mergeAll after rounds runs) := by
  fun_induction mergeAll after rounds runs with
  | case1 => exact .pure fun _ => .refl _
  | case2 => exact .pure fun _ => by rw [List.flatten_singleton]
  | case3 runs hnil hone => exact .pure fun _ => .refl _
  | case4 rounds runs hnil hone ih =>
      refine (keeps_mergeNeighbours h runs).bind fun merged => ?_
      refine (ih merged).mono (fun hmerged value hvalue => ?_) fun sorted hmerged hsorted => ?_
      · exact hmerged.1 value (hmerged.2.mem_iff.mp hvalue)
      · exact hsorted.trans hmerged.2

theorem keeps_mergeSort (items : List Value) :
    C.Keeps (∀ value ∈ items, P value) (fun sorted => sorted.Perm items)
      (mergeSort after items) := by
  have hsort := keeps_mergeAll h items.length (items.map fun item => [item])
  rwa [← List.flatMap_def, List.flatMap_singleton'] at hsort

end Sorting

/-- Sorting loses no element and adds none. -/
theorem keeps_sortValues {P : Value → Prop} {call : Caller} {loc : Location}
    (hcall : ∀ f a b callee, C.Keeps (P a ∧ P b) (fun _ => True) (call f [a, b] callee loc))
    (comparator : Option Value) (items : List Value) :
    C.Keeps (∀ value ∈ items, P value) (fun sorted => sorted.Perm items)
      (Builtin.sortValues call comparator loc items) := by
  have hafter (a b : Value) :
      C.Keeps (P a ∧ P b) (fun _ => True) (Builtin.sortsAfter call comparator loc a b) := by
    cases comparator with
    | none => exact .consult fun _ _ _ => trivial
    | some compare => exact (hcall compare a b _).bind fun _ => .consult fun _ _ _ => trivial
  have hparts : ((items.partition Value.isUndefined).2 ++
      (items.partition Value.isUndefined).1).Perm items := by
    rw [List.partition_eq_filter_filter]
    exact List.perm_append_comm.trans (List.filter_append_perm _ items)
  unfold Builtin.sortValues
  rcases hpartition : items.partition Value.isUndefined with ⟨absent, present⟩
  rw [hpartition] at hparts
  have hpresent : C.Keeps (∀ value ∈ items, P value) (fun sorted => sorted.Perm present)
      (Builtin.mergeSort (Builtin.sortsAfter call comparator loc) present) :=
    (keeps_mergeSort hafter present).under
      fun hall value hvalue => hall value (hparts.mem_iff.mp (List.mem_append_left _ hvalue))
  refine hpresent.bind fun sorted => .pure fun hsorted => ?_
  exact (hsorted.2.append_right absent).trans hparts

end Upkeep

end StepTrace
