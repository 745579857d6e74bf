import StepTrace.Proofs.Ends
import StepTrace.Proofs.Frames

/-!
# The work of one frame

What happens while code of one frame runs is on record, each moment with its environment. So it
can be read from the record which return statements belong to that frame, since these are the
ones carried out while it is the last, and whether a function was called without room for another
frame. Code of one frame that runs behind other code of it is again such code (`Runs.bind`), and
so is a whole call, seen from the frame around it (`Keeps.frame`).

* `Passage`: what two states have in common between which code of one frame has run.
* `Runs`: a property of the frames is there before and afterwards, and the code in between is
  that of one frame; `Keeps` is the case in which the frames are the same.
* `Runs.block`: the frames are the same behind a block if they are those of a block inside.
-/

namespace StepTrace

open Syntax

variable {α β : Type}

/-! ## Moments -/

/-- The value of a return statement that has been carried out. -/
def Event.returned? : Event → Option Value
  | .returned value => some value
  | _ => none

/-- The values of the return statements that were carried out while there were so many frames. -/
def returnsAt (depth : Nat) (moments : List Moment) : List Value :=
  moments.filterMap fun moment =>
    if moment.env.depth = depth then moment.event.returned? else none

/-- A function was called while there were as many frames as there may be. -/
def Overflows (moments : List Moment) : Prop :=
  ∃ moment ∈ moments, moment.event = .called ∧ Limit.callDepth ≤ moment.env.depth

/-- The stack was found full. -/
def Stop.Overflow (stop : Stop) : Prop :=
  ∃ loc, stop = .fault ⟨.callDepth, loc⟩

/-- The value with which a statement ended the call around it, if it did. -/
def Completion.returned : Completion → List Value
  | .return value => [value]
  | _ => []

theorem returnsAt_append (depth : Nat) (moments moments' : List Moment) :
    returnsAt depth (moments ++ moments') = returnsAt depth moments ++ returnsAt depth moments' :=
  List.filterMap_append

/-- Where there are more frames throughout, nothing is returned with so many. -/
theorem returnsAt_eq_nil {depth : Nat} {moments : List Moment}
    (h : ∀ moment ∈ moments, depth < moment.env.depth) : returnsAt depth moments = [] := by
  refine List.filterMap_eq_nil_iff.mpr fun moment hmoment => ?_
  have hdepth := h moment hmoment
  rw [if_neg (by omega)]

theorem not_overflows_nil : ¬ Overflows [] :=
  nofun

theorem overflows_append {moments moments' : List Moment} :
    Overflows (moments ++ moments') ↔ Overflows moments ∨ Overflows moments' := by
  simp [Overflows, or_and_right, exists_or]

theorem not_overflows_singleton {moment : Moment} (h : moment.event ≠ .called) :
    ¬ Overflows [moment] := by
  simp [Overflows, h]

/-! ## Passages -/

/-- Between the two states code of one frame has run, and that of the calls that it made. There
are never more frames than are allowed, or than there were. -/
structure Passage (s s' : State) (moments : List Moment) : Prop where
  past : s'.past.get = s.past.get ++ moments
  advances : s.env.Advances s'.env
  depth : ∀ moment ∈ moments, s.env.depth ≤ moment.env.depth ∧
    moment.env.depth ≤ max s.env.depth Limit.callDepth

variable {s s' s'' : State} {moments moments' : List Moment}

theorem Passage.refl (s : State) : Passage s s [] :=
  ⟨(List.append_nil _).symm, .refl _, List.forall_mem_nil _⟩

theorem Passage.trans (h : Passage s s' moments) (h' : Passage s' s'' moments') :
    Passage s s'' (moments ++ moments') := by
  refine ⟨?_, h.advances.trans h'.advances, List.forall_mem_append.mpr ⟨h.depth, ?_⟩⟩
  · rw [h'.past, h.past, List.append_assoc]
  · rw [← h.advances.depth]
    exact h'.depth

/-- One event, behind a change that is not on record yet. -/
theorem Passage.record (event : Event) (hpast : s'.past = s.past)
    (hadvances : s.env.Advances s'.env) :
    Passage s (s'.record event) [⟨event, s'.env, s'.heap⟩] := by
  refine ⟨by simp [State.record, hpast], hadvances, ?_⟩
  rintro moment hmoment
  cases List.mem_singleton.mp hmoment
  rw [hadvances.depth]
  exact ⟨Nat.le_refl _, Nat.le_max_left _ _⟩

/-- Code of the frame has come to its end, having returned the values. -/
def Finished (s : State) (returned : List Value) (s' : State) : Prop :=
  ∃ moments, Passage s s' moments ∧ returnsAt s.env.depth moments = returned ∧
    ¬ Overflows moments

/-- Code of the frame was stopped; the stack was found full if and only if a function was called
while it was. -/
def Abandoned (s : State) (stop : Stop) (s' : State) : Prop :=
  ∃ moments, Passage s s' moments ∧ (stop.Overflow ↔ Overflows moments)

variable {returned returned' : List Value} {stop : Stop}

theorem Finished.refl (s : State) : Finished s [] s :=
  ⟨[], .refl s, rfl, not_overflows_nil⟩

theorem Finished.trans (h : Finished s returned s') (h' : Finished s' returned' s'') :
    Finished s (returned ++ returned') s'' := by
  obtain ⟨moments, hpassage, hreturns, hroom⟩ := h
  obtain ⟨moments', hpassage', hreturns', hroom'⟩ := h'
  refine ⟨_, hpassage.trans hpassage', ?_, ?_⟩
  · rw [returnsAt_append, hreturns, ← hpassage.advances.depth, hreturns']
  · rw [overflows_append]
    exact not_or.mpr ⟨hroom, hroom'⟩

/-- An event that is neither a return nor a call. -/
theorem Finished.record {event : Event} (hreturned : event.returned? = none)
    (hcalled : event ≠ .called) (hpast : s'.past = s.past) (hadvances : s.env.Advances s'.env) :
    Finished s [] (s'.record event) := by
  refine ⟨_, .record event hpast hadvances, ?_, not_overflows_singleton hcalled⟩
  simp [returnsAt, hreturned]

theorem Finished.changeEnv {change : Environment → Environment}
    (h : s.env.Advances (change s.env)) : Finished s [] (s.changeEnv change) :=
  .record rfl nofun rfl h

theorem Abandoned.refl (s : State) (h : ¬ stop.Overflow) : Abandoned s stop s :=
  ⟨[], .refl s, iff_of_false h not_overflows_nil⟩

theorem Finished.abandoned (h : Finished s returned s') (h' : Abandoned s' stop s'') :
    Abandoned s stop s'' := by
  obtain ⟨moments, hpassage, -, hroom⟩ := h
  obtain ⟨moments', hpassage', hoverflow⟩ := h'
  refine ⟨_, hpassage.trans hpassage', ?_⟩
  rw [overflows_append, hoverflow]
  exact (or_iff_right hroom).symm

/-- What is left to do behind a stop. -/
theorem Abandoned.trans (h : Abandoned s stop s') (h' : Finished s' returned s'') :
    Abandoned s stop s'' := by
  obtain ⟨moments, hpassage, hoverflow⟩ := h
  obtain ⟨moments', hpassage', -, hroom⟩ := h'
  refine ⟨_, hpassage.trans hpassage', ?_⟩
  rw [overflows_append, hoverflow]
  exact (or_iff_left hroom).symm

/-! ## Computations of one frame -/

/-- Where the environment has the property, it has it again afterwards, and what happens is the
work of one frame, which returns the values in `own`. -/
def Runs (I : Environment → Prop) (own : α → List Value) (m : Eval α) : Prop :=
  ∀ s, I s.env → (m s).Ends (fun a s' => I s'.env ∧ Finished s (own a) s')
    fun stop s' => I s'.env ∧ Abandoned s stop s'

/-- The frames are the same afterwards. -/
def Keeps (own : α → List Value) (m : Eval α) : Prop :=
  ∀ frames, Runs (fun env => env.frames = frames) own m

/-- Nothing is returned. -/
def silent (_ : α) : List Value :=
  []

namespace Runs

variable {I : Environment → Prop} {own : α → List Value}

theorem done {a : α} (h : own a = []) : Runs I own (pure a) := by
  intro s hs
  refine ⟨hs, ?_⟩
  rw [h]
  exact .refl s

theorem halt {stop : Stop} (h : ¬ stop.Overflow) : Runs I own (Eval.stop stop) :=
  fun s hs => ⟨hs, .refl s h⟩

/-- A change that the property of frames outlives. -/
theorem changeEnv {change : Environment → Environment} (hI : ∀ env, I env → I (change env))
    (h : ∀ env : Environment, env.Advances (change env)) : Runs I silent (Eval.changeEnv change) :=
  fun s hs => ⟨hI s.env hs, .changeEnv (h s.env)⟩

theorem bind {own : β → List Value} {m : Eval α} {f : α → Eval β} (h : Runs I silent m)
    (hf : ∀ a, Runs I own (f a)) : Runs I own (m >>= f) := by
  intro s hs
  refine (h s hs).bind fun a s₁ ⟨hs₁, hfinished⟩ => ?_
  refine (hf a s₁ hs₁).mono (fun b s₂ ⟨hs₂, h₂⟩ => ?_) fun stop s₂ ⟨hs₂, h₂⟩ => ?_
  · exact ⟨hs₂, hfinished.trans h₂⟩
  · exact ⟨hs₂, hfinished.abandoned h₂⟩

/-- Behind a statement that may have returned, nothing happens if it has. -/
theorem unlessReturned {m : Eval Completion} {f : Completion → Eval Completion}
    (h : Runs I Completion.returned m) (hreturn : ∀ value, f (.return value) = pure (.return value))
    (hf : ∀ c, c.returned = [] → Runs I Completion.returned (f c)) :
    Runs I Completion.returned (m >>= f) := by
  intro s hs
  refine (h s hs).bind fun c s₁ ⟨hs₁, hfinished⟩ => ?_
  by_cases hc : c.returned = []
  · rw [hc] at hfinished
    refine (hf c hc s₁ hs₁).mono (fun b s₂ ⟨hs₂, h₂⟩ => ?_) fun stop s₂ ⟨hs₂, h₂⟩ => ?_
    · exact ⟨hs₂, hfinished.trans h₂⟩
    · exact ⟨hs₂, hfinished.abandoned h₂⟩
  · cases c with
    | «return» value =>
        rw [hreturn]
        exact ⟨hs₁, hfinished⟩
    | _ => exact absurd rfl hc

/-- A block is left as it was entered, also if its scope has been exchanged meanwhile. -/
theorem block {m : Eval α} {frames : List Frame} (h : Runs (Environment.Inside frames) own m) :
    Runs (fun env => env.frames = frames) own (Eval.block m) := by
  rintro s rfl
  have hentered : Finished s [] (s.changeEnv Environment.enterBlock) :=
    .changeEnv (Environment.advances_enterBlock s.env)
  have hinside := h (s.changeEnv Environment.enterBlock) (Environment.inside_enterBlock s.env)
  have hleft (s₁ : State) : Finished s₁ [] (s₁.changeEnv Environment.leaveBlock) :=
    .changeEnv (Environment.advances_leaveBlock s₁.env)
  refine Process.Ends.leaving (hinside.mono (fun a s₁ ⟨hs₁, h₁⟩ => ?_) fun stop s₁ ⟨hs₁, h₁⟩ => ?_)
  · have hall := (hentered.trans h₁).trans (hleft s₁)
    rw [List.nil_append, List.append_nil] at hall
    exact ⟨hs₁.frames_leaveBlock, hall⟩
  · exact ⟨hs₁.frames_leaveBlock, (hentered.abandoned h₁).trans (hleft s₁)⟩

end Runs

namespace Keeps

variable {own : α → List Value}

theorem ends {m : Eval α} (h : Keeps own m) (s : State) :
    (m s).Ends (fun a s' => s'.env.frames = s.env.frames ∧ Finished s (own a) s')
      fun stop s' => s'.env.frames = s.env.frames ∧ Abandoned s stop s' :=
  h s.env.frames s rfl

/-- What keeps the frames keeps them inside of a block, too. -/
theorem inside {m : Eval α} (h : Keeps own m) (frames : List Frame) :
    Runs (Environment.Inside frames) own m := by
  intro s hs
  refine (h.ends s).mono (fun a s' ⟨hframes, hfinished⟩ => ?_) fun stop s' ⟨hframes, hstop⟩ => ?_
  · obtain ⟨moments, hpassage, hrest⟩ := hfinished
    refine ⟨hs.of_extends ⟨hframes, hpassage.advances.grown⟩, moments, hpassage, hrest⟩
  · obtain ⟨moments, hpassage, hrest⟩ := hstop
    exact ⟨hs.of_extends ⟨hframes, hpassage.advances.grown⟩, moments, hpassage, hrest⟩

end Keeps

/-! ## Calls -/

/-- A frame has been made and left, seen from the frame around it, and has returned the values. -/
def Framed (s : State) (returned : List Value) (s' : State) : Prop :=
  ∃ moments, Passage s s' moments ∧ returnsAt s.env.depth moments = [] ∧
    returnsAt (s.env.depth + 1) moments = returned ∧ ¬ Overflows moments

theorem Framed.finished (h : Framed s returned s') : Finished s [] s' := by
  obtain ⟨moments, hpassage, hreturns, -, hroom⟩ := h
  exact ⟨moments, hpassage, hreturns, hroom⟩

/-- The passage of a frame with what comes before and behind it. -/
theorem Passage.framed {name : String} {parent : Nat}
    (h : Passage (s.changeEnv (·.enterCall name parent)) s' moments)
    (hframes : s'.env.frames = (s.env.enterCall name parent).frames)
    (hroom : s.env.depth < Limit.callDepth) :
    Passage s (s'.changeEnv Environment.leaveCall)
      (⟨.changed, s.env.enterCall name parent, s.heap⟩ ::
        (moments ++ [⟨.changed, s'.env.leaveCall, s'.heap⟩])) := by
  have hentered : (s.env.enterCall name parent).depth = s.env.depth + 1 := rfl
  have hleft : s'.env.leaveCall.depth = s.env.depth := by
    simp [Environment.leaveCall, Environment.depth, hframes, Environment.enterCall]
  have hbetween : ∀ moment ∈ moments, s.env.depth + 1 ≤ moment.env.depth ∧
      moment.env.depth ≤ max (s.env.depth + 1) Limit.callDepth := h.depth
  refine ⟨?_, ⟨hleft, ?_⟩, fun moment hmoment => ?_⟩
  · simp [State.changeEnv, State.record, h.past]
  · exact (Scopes.grown_push s.env.scopes _).trans h.advances.grown
  · rw [List.mem_cons, List.mem_append, List.mem_singleton] at hmoment
    rcases hmoment with rfl | hmoment | rfl
    · dsimp only
      omega
    · have := hbetween moment hmoment
      omega
    · dsimp only
      omega

/-! Making and leaving a frame is neither a return nor a call, so it does not show in these. -/

section Framed

variable {env env' : Environment} {heap heap' : Heap}

theorem returnsAt_framed (depth : Nat) (moments : List Moment) :
    returnsAt depth (⟨.changed, env, heap⟩ :: (moments ++ [⟨.changed, env', heap'⟩])) =
      returnsAt depth moments := by
  simp [returnsAt, Event.returned?]

theorem overflows_framed (moments : List Moment) :
    Overflows (⟨.changed, env, heap⟩ :: (moments ++ [⟨.changed, env', heap'⟩])) ↔
      Overflows moments := by
  simp [Overflows, or_and_right, exists_or]

end Framed

/-- A frame of its own returns to the call that made it, and to no frame below. -/
theorem Keeps.frame {m : Eval Completion} (h : Keeps Completion.returned m) (name : String)
    (parent : Nat) (s : State) (hroom : s.env.depth < Limit.callDepth) :
    (Eval.frame name parent m s).Ends
      (fun c s' => s'.env.frames = s.env.frames ∧ Framed s c.returned s')
      fun stop s' => s'.env.frames = s.env.frames ∧ Abandoned s stop s' := by
  have htail (s' : State) (hframes : s'.env.frames = (s.env.enterCall name parent).frames) :
      s'.env.leaveCall.frames = s.env.frames := congrArg List.tail hframes
  have hends := h.ends (s.changeEnv (·.enterCall name parent))
  refine Process.Ends.leaving (hends.mono (fun c s' ⟨hframes, hfinished⟩ => ?_)
    fun stop s' ⟨hframes, hstop⟩ => ?_)
  · obtain ⟨moments, hpassage, hreturns, hclear⟩ := hfinished
    refine ⟨htail s' hframes, _, hpassage.framed hframes hroom, ?_, ?_, ?_⟩
    · rw [returnsAt_framed]
      exact returnsAt_eq_nil fun moment hmoment => (hpassage.depth moment hmoment).1
    · rw [returnsAt_framed]
      exact hreturns
    · rw [overflows_framed]
      exact hclear
  · obtain ⟨moments, hpassage, hstopped⟩ := hstop
    refine ⟨htail s' hframes, _, hpassage.framed hframes hroom, ?_⟩
    rw [overflows_framed]
    exact hstopped

end StepTrace
