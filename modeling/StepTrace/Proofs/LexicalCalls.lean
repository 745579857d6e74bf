import StepTrace.Proofs.CorrespondingPrograms
import StepTrace.Proofs.Passages

/-!
# Calls and their callers

What a call does is the same whoever makes it. Two states may differ in the frames that are under
way and in all that has happened; as long as they have the same scopes, the same heap and the
same closures, a call in the one takes the course that it takes in the other (`call_of_agree`).
The one thing that depends on the callers is whether there is room for another frame, so two
calls are compared only if neither finds the stack full (`InStep`).

Inside a call both sides have the same latest frame above frames that differ, and there the
constructs of the language are a concord (`ProgramConcord.secluded`).
-/

namespace StepTrace

open Syntax Capture

variable {α β : Type}

/-! ## States with different frames -/

/-- A moment without the frames. -/
def Moment.seen (moment : Moment) : Event × Scopes × Heap :=
  (moment.event, moment.env.scopes, moment.heap)

/-- The states have these frames and agree on all else, and behind these pasts the same has
happened in both. -/
structure Agree (frames frames' : List Frame) (past past' : List Moment) (s s' : State) :
    Prop where
  frames : s.env.frames = frames
  frames' : s'.env.frames = frames'
  scopes : s.env.scopes = s'.env.scopes
  heap : s.heap = s'.heap
  closures : s.closures = s'.closures
  moments : ∃ moments moments', s.past.get = past ++ moments ∧ s'.past.get = past' ++ moments' ∧
    moments.map Moment.seen = moments'.map Moment.seen

namespace Agree

variable {frames frames' : List Frame} {past past' : List Moment} {s s' : State}

theorem record (h : Agree frames frames' past past' s s') (event : Event) :
    Agree frames frames' past past' (s.record event) (s'.record event) := by
  obtain ⟨moments, moments', hpast, hpast', hseen⟩ := h.moments
  refine ⟨h.frames, h.frames', h.scopes, h.heap, h.closures,
    moments ++ [⟨event, s.env, s.heap⟩], moments' ++ [⟨event, s'.env, s'.heap⟩], ?_, ?_, ?_⟩
  · simp [State.record, hpast]
  · simp [State.record, hpast']
  · simp [Moment.seen, hseen, h.scopes, h.heap]

theorem changeHeap (h : Agree frames frames' past past' s s') (change : Heap → Heap) :
    Agree frames frames' past past' (s.changeHeap change) (s'.changeHeap change) := by
  have hchanged : Agree frames frames' past past' { s with heap := change s.heap }
      { s' with heap := change s'.heap } :=
    ⟨h.frames, h.frames', h.scopes, congrArg change h.heap, h.closures, h.moments⟩
  exact hchanged.record .changed

theorem changeEnv (h : Agree frames frames' past past' s s')
    (change : Environment → Environment)
    (hscopes : (change s.env).scopes = (change s'.env).scopes) :
    Agree (change s.env).frames (change s'.env).frames past past' (s.changeEnv change)
      (s'.changeEnv change) := by
  have hchanged : Agree (change s.env).frames (change s'.env).frames past past'
      { s with env := change s.env } { s' with env := change s'.env } :=
    ⟨rfl, rfl, hscopes, h.heap, h.closures, h.moments⟩
  exact hchanged.record .changed

end Agree

/-- The latest frame is the same, with these frames below it. -/
def AgreeAbove (below below' : List Frame) (past past' : List Moment) (s s' : State) : Prop :=
  ∃ frame, Agree (frame :: below) (frame :: below') past past' s s'

namespace AgreeAbove

variable {below below' : List Frame} {past past' : List Moment} {s s' : State}

theorem sees {γ : Type} (h : AgreeAbove below below' past past' s s')
    (question : Environment → Heap → γ) (hquestion : Environment.SeesLatest question) :
    question s.env s.heap = question s'.env s'.heap := by
  obtain ⟨frame, h⟩ := h
  obtain ⟨⟨scopes, frames⟩, heap, closures, moments⟩ := s
  obtain ⟨⟨scopes', frames'⟩, heap', closures', moments'⟩ := s'
  obtain ⟨rfl, rfl, rfl, rfl, -, -⟩ := h
  exact hquestion scopes frame below below' heap

theorem record (h : AgreeAbove below below' past past' s s') (event : Event) :
    AgreeAbove below below' past past' (s.record event) (s'.record event) := by
  obtain ⟨frame, h⟩ := h
  exact ⟨frame, h.record event⟩

theorem changeHeap (h : AgreeAbove below below' past past' s s') (change : Heap → Heap) :
    AgreeAbove below below' past past' (s.changeHeap change) (s'.changeHeap change) := by
  obtain ⟨frame, h⟩ := h
  exact ⟨frame, h.changeHeap change⟩

theorem changeEnv (h : AgreeAbove below below' past past' s s')
    {change : Environment → Environment} (hchange : Environment.ChangesLatest change) :
    AgreeAbove below below' past past' (s.changeEnv change) (s'.changeEnv change) := by
  obtain ⟨frame, h⟩ := h
  obtain ⟨scopes, frame', hchanged⟩ := hchange s.env.scopes frame
  have henv : change s.env = ⟨scopes, frame' :: below⟩ := by
    rw [← hchanged below, ← h.frames]
  have henv' : change s'.env = ⟨scopes, frame' :: below'⟩ := by
    rw [← hchanged below', ← h.frames', h.scopes]
  refine ⟨frame', ?_⟩
  have hagree := h.changeEnv change (by rw [henv, henv'])
  rwa [henv, henv'] at hagree

theorem addClosure (h : AgreeAbove below below' past past' s s') (f : Function) :
    AgreeAbove below below' past past' (s.addClosure f) (s'.addClosure f) := by
  have hcurrent : s.env.current = s'.env.current :=
    h.sees (fun env _ => env.current) fun _ _ _ _ _ => rfl
  obtain ⟨frame, h⟩ := h
  have hadded : Agree (frame :: below) (frame :: below') past past'
      { s with
        heap := s.heap.addFunction f.name
        closures := s.closures.push ⟨f, s.env.current⟩ }
      { s' with
        heap := s'.heap.addFunction f.name
        closures := s'.closures.push ⟨f, s'.env.current⟩ } := by
    refine ⟨h.frames, h.frames', h.scopes, congrArg (·.addFunction f.name) h.heap, ?_, h.moments⟩
    simp only [h.closures, hcurrent]
  exact ⟨frame, hadded.record .changed⟩

end AgreeAbove

/-! ## Processes in step -/

/-- The processes offer the same steps and come to the same end, in states that agree, unless one
of them finds the stack full. -/
inductive InStep (agree : State → State → Prop) : Process α → Process α → Prop
  | done {a : α} {s s' : State} (h : agree s s') : InStep agree (.done a s) (.done a s')
  | stopped {stop : Stop} {s s' : State} (h : agree s s') :
    InStep agree (.stopped stop s) (.stopped stop s')
  | offering {step : Step} {answer answer' : Bool → Process α}
    (h : ∀ taken, InStep agree (answer taken) (answer' taken)) :
    InStep agree (.offering step answer) (.offering step answer')
  | full {loc : Location} {s : State} {p' : Process α} :
    InStep agree (.stopped (.fault ⟨.callDepth, loc⟩) s) p'
  | full' {loc : Location} {s' : State} {p : Process α} :
    InStep agree p (.stopped (.fault ⟨.callDepth, loc⟩) s')

namespace InStep

variable {agree agree' : State → State → Prop} {p p' : Process α}

theorem andThen {next next' : α → State → Process β} (h : InStep agree p p')
    (hagree : ∀ s s', agree s s' → agree' s s')
    (hnext : ∀ a s s', agree s s' → InStep agree' (next a s) (next' a s')) :
    InStep agree' (p.andThen next) (p'.andThen next') := by
  induction h with
  | done h => exact hnext _ _ _ h
  | stopped h => exact .stopped (hagree _ _ h)
  | offering _ ih => exact .offering ih
  | full => exact .full
  | full' => exact .full'

theorem leaving {leave : Environment → Environment} (h : InStep agree p p')
    (hleave : ∀ s s', agree s s' → agree' (s.changeEnv leave) (s'.changeEnv leave)) :
    InStep agree' (p.leaving leave) (p'.leaving leave) := by
  induction h with
  | done h => exact .done (hleave _ _ h)
  | stopped h => exact .stopped (hleave _ _ h)
  | offering _ ih => exact .offering ih
  | full => exact .full
  | full' => exact .full'

theorem mono (h : InStep agree p p') (hagree : ∀ s s', agree s s' → agree' s s') :
    InStep agree' p p' := by
  induction h with
  | done h => exact .done (hagree _ _ h)
  | stopped h => exact .stopped (hagree _ _ h)
  | offering _ ih => exact .offering ih
  | full => exact .full
  | full' => exact .full'

end InStep

/-! ## Code inside a call -/

/-- Inside a call the computations do the same, whatever the frames below. -/
def Secluded (m m' : Eval α) : Prop :=
  ∀ below below' past past' s s', AgreeAbove below below' past past' s s' →
    InStep (AgreeAbove below below' past past') (m s) (m' s')

namespace Secluded

theorem pure (a : α) : Secluded (pure a) (pure a) :=
  fun _ _ _ _ _ _ h => .done h

theorem bind {m m' : Eval α} {f f' : α → Eval β} (hm : Secluded m m')
    (hf : ∀ a, Secluded (f a) (f' a)) : Secluded (m >>= f) (m' >>= f') := by
  intro below below' past past' s s' h
  rw [Eval.bind_apply, Eval.bind_apply]
  exact (hm _ _ _ _ s s' h).andThen (fun _ _ h => h) fun a s s' h => hf a _ _ _ _ s s' h

theorem stop (stop : Stop) : Secluded (Eval.stop stop : Eval α) (Eval.stop stop) :=
  fun _ _ _ _ _ _ h => .stopped h

theorem asking {question : Environment → Heap → α} {f f' : α → Eval β}
    (hquestion : Environment.SeesLatest question)
    (hf : ∀ env heap, Secluded (f (question env heap)) (f' (question env heap))) :
    Secluded (Eval.ask question >>= f) (Eval.ask question >>= f') := by
  intro below below' past past' s s' h
  rw [Eval.bind_apply, Eval.bind_apply]
  change InStep _ (f (question s.env s.heap) s) (f' (question s'.env s'.heap) s')
  rw [← h.sees question hquestion]
  exact hf s.env s.heap _ _ _ _ s s' h

theorem changeEnv {change : Environment → Environment}
    (hchange : Environment.ChangesLatest change) :
    Secluded (Eval.changeEnv change) (Eval.changeEnv change) :=
  fun _ _ _ _ _ _ h => .done (h.changeEnv hchange)

theorem assign (loc : Location) (name : String) (value : Value) :
    Secluded (Eval.assign loc name value) (Eval.assign loc name value) := by
  refine asking (fun _ _ _ _ _ => rfl) fun env heap => ?_
  rcases env.assignee name with (_ | _) | scope
  · exact stop _
  · exact stop _
  · exact changeEnv fun scopes frame => ⟨scopes.declare scope name value false, frame,
      fun _ => rfl⟩

theorem complete (stmt : Stmt) (rest : List Stmt) :
    Secluded (Eval.complete stmt rest) (Eval.complete stmt rest) := by
  intro below below' past past' s s' h
  unfold Eval.complete
  split
  · exact .done (h.record _)
  · exact .done h

theorem capture (names : List String) (line : Nat) :
    Secluded (Eval.capture names line) (Eval.capture names line) := by
  refine asking (fun _ _ _ _ _ => rfl) fun env heap => ?_
  intro below below' past past' s s' h
  refine .offering fun taken => ?_
  cases taken
  · exact .stopped h
  · exact .done (h.record _)

theorem block {m m' : Eval α} (h : Secluded m m') : Secluded (Eval.block m) (Eval.block m') := by
  refine (changeEnv .enterBlock).bind fun _ below below' past past' s s' hs => ?_
  exact (h _ _ _ _ s s' hs).leaving fun s s' hs => hs.changeEnv .leaveBlock

/-- A frame may be put on frames that have nothing in common. -/
theorem frame {m m' : Eval α} (h : Secluded m m') (name : String) (parent : Nat)
    {frames frames' : List Frame} {past past' : List Moment} {s s' : State}
    (hs : Agree frames frames' past past' s s') :
    InStep (Agree frames frames' past past') (Eval.frame name parent m s)
      (Eval.frame name parent m' s') := by
  have hentered : AgreeAbove frames frames' past past' (s.changeEnv (·.enterCall name parent))
      (s'.changeEnv (·.enterCall name parent)) := by
    have hagree := hs.changeEnv (·.enterCall name parent)
      (by simp [Environment.enterCall, hs.scopes])
    refine ⟨⟨name, s.env.scopes.size⟩, ?_⟩
    simpa [Environment.enterCall, hs.frames, hs.frames', hs.scopes] using hagree
  unfold Eval.frame
  rw [Eval.bind_apply, Eval.bind_apply]
  refine (h _ _ _ _ _ _ hentered).leaving fun s s' habove => ?_
  obtain ⟨latest, hs⟩ := habove
  have hagree := hs.changeEnv Environment.leaveCall hs.scopes
  simpa [Environment.leaveCall, hs.frames, hs.frames'] using hagree

/-- A call is made if there is room for a frame, which may depend on the callers. -/
theorem calling {loc : Location} {m m' : Eval α} {agree : State → State → Prop} {s s' : State}
    (h : InStep agree (m (s.record .called)) (m' (s'.record .called))) :
    InStep agree
      ((Eval.calling >>= fun depth =>
        if depth ≥ Limit.callDepth then Eval.raise loc .callDepth else m) s)
      ((Eval.calling >>= fun depth =>
        if depth ≥ Limit.callDepth then Eval.raise loc .callDepth else m') s') := by
  rw [Eval.bind_apply, Eval.bind_apply]
  change InStep agree
    ((if s.env.depth ≥ Limit.callDepth then Eval.raise loc .callDepth else m) (s.record .called))
    ((if s'.env.depth ≥ Limit.callDepth then Eval.raise loc .callDepth else m')
      (s'.record .called))
  split
  · exact .full
  · split
    · exact .full'
    · exact h

end Secluded

/-- What expressions do inside a call. -/
def Accord.secluded : Accord #[] where
  Rel := Secluded
  Marked _ := True
  Named _ := True
  Spelled _ := True
  Sited _ := True
  pure := .pure
  bind := .bind
  fault _ _ := .stop _
  misspelled _ _ _ := .stop _
  asking := .asking
  assign _ := .assign _
  changeHeap change _ _ _ _ _ _ _ h := .done (h.changeHeap change)
  unchecked array _ _ _ _ _ _ h := .done (h.record _)
  untested value _ _ _ _ _ _ h := .done (h.record _)
  newClosure {placing f} hp _ below below' past past' s s' h := by
    obtain rfl := hp.elim id id
    rw [placeFunction_empty]
    have hsize : s.closures.size = s'.closures.size := by
      obtain ⟨frame, h⟩ := h
      rw [h.closures]
    unfold Eval.newClosure
    rw [hsize]
    exact .done (h.addClosure f)

/-- What a program does inside a call. -/
def ProgramConcord.secluded : ProgramConcord #[] where
  toExprConcord := Accord.secluded.exprs
  Looks _ := True
  block := Secluded.block
  frame name parent m m' h below below' past past' s s' := fun ⟨latest, hs⟩ =>
    (Secluded.frame h name parent hs).mono fun _ _ hs => ⟨latest, hs⟩
  exhausted := .stop _
  changeEnv _ := .changeEnv
  calling _ h _ _ _ _ _ _ hs := Secluded.calling (h _ _ _ _ _ _ (hs.record _))
  leaveWith value _ _ _ _ _ _ h := .done (h.record _)
  withClosure place k k' hnone hsome below below' past past' s s' h := by
    have hclosures : s.closures = s'.closures := by
      obtain ⟨frame, h⟩ := h
      exact h.closures
    rw [Eval.bind_apply, Eval.bind_apply]
    change InStep _ (k s.closures[place]? s) (k' s'.closures[place]? s')
    rw [← hclosures]
    cases s.closures[place]? with
    | none => exact hnone _ _ _ _ s s' h
    | some closure =>
        have hplaced := hsome #[] closure (Or.inl rfl)
          (Confined.within ⟨fun _ _ => trivial, fun _ _ => trivial⟩ _ _)
        rw [Closure.place, placeFunction_empty] at hplaced
        exact hplaced _ _ _ _ s s' h
  capture _ _ := .capture _ _
  complete hp _ := by
    obtain rfl := hp.elim id id
    rw [placeStmt_empty, placeStmts_empty]
    exact .complete _ _
  completeCaptured names _ _ _ _ _ _ hexec := by simp [isExecutable] at hexec

/-! ## Calls for a consumer -/

/-- How a process ended: the steps that were offered, the value or why it stopped, and the state
in which it ended. -/
structure Ending (α : Type) where
  offered : List Step
  result : Except Stop α
  final : State

/-- How the process ends for a consumer that has been offered some steps already. It takes the
last step that it is offered, or does not, in view of all of them. -/
def Process.endingFor (takes : List Step → Bool) (offered : List Step) : Process α → Ending α
  | done a s => ⟨offered, .ok a, s⟩
  | stopped stop s => ⟨offered, .error stop, s⟩
  | offering step answer =>
    (answer (takes (offered ++ [step]))).endingFor takes (offered ++ [step])

/-- The stack was found full. -/
def Ending.Overflow (ending : Ending α) : Prop :=
  ∃ stop, ending.result = .error stop ∧ stop.Overflow

/-- Processes in step end alike for every consumer, if neither finds the stack full. -/
theorem InStep.endingFor {agree : State → State → Prop} {p p' : Process α}
    (h : InStep agree p p') (takes : List Step → Bool) (offered : List Step)
    (hroom : ¬ (p.endingFor takes offered).Overflow)
    (hroom' : ¬ (p'.endingFor takes offered).Overflow) :
    (p.endingFor takes offered).offered = (p'.endingFor takes offered).offered ∧
      (p.endingFor takes offered).result = (p'.endingFor takes offered).result ∧
      agree (p.endingFor takes offered).final (p'.endingFor takes offered).final := by
  induction h generalizing offered with
  | done h => exact ⟨rfl, rfl, h⟩
  | stopped h => exact ⟨rfl, rfl, h⟩
  | offering _ ih => exact ih _ _ hroom hroom'
  | full => exact absurd ⟨_, rfl, _, rfl⟩ hroom
  | full' => exact absurd ⟨_, rfl, _, rfl⟩ hroom'

/-- **A call does not see its caller.** In two states with the same scopes, the same heap and the
same closures, but with any frames and any past, the call of a closure offers the same steps,
ends with the same value or stops for the same reason, and ends in such states again, each with
the frames that it had; in between the same events have happened, with the same scopes and the
same heap behind each. This is so for every consumer, if neither call finds the stack full. -/
theorem call_of_agree (names : List String) (bound : Nat) (closure : Closure) (args : List Value)
    (loc : Location) (s s' : State) (hscopes : s.env.scopes = s'.env.scopes)
    (hheap : s.heap = s'.heap) (hclosures : s.closures = s'.closures)
    (takes : List Step → Bool) (offered : List Step) :
    let on : Setting := ⟨callWithin names bound, bound, names⟩
    let ending := (callClosure on closure args loc s).endingFor takes offered
    let ending' := (callClosure on closure args loc s').endingFor takes offered
    ¬ ending.Overflow → ¬ ending'.Overflow →
      ending.offered = ending'.offered ∧ ending.result = ending'.result ∧
        Agree s.env.frames s'.env.frames s.past.get s'.past.get ending.final ending'.final := by
  intro on ending ending' hroom hroom'
  have hbody : Secluded (callBody on closure args) (callBody on closure args) := by
    have hplaced := ProgramConcord.secluded.closureBody
      (ProgramConcord.secluded.settings names trivial bound) (Or.inl rfl) closure args
      (Confined.within ⟨fun _ _ => trivial, fun _ _ => trivial⟩ _ _)
    rwa [Closure.place, placeFunction_empty] at hplaced
  have hagree : Agree s.env.frames s'.env.frames s.past.get s'.past.get s s' :=
    ⟨rfl, rfl, hscopes, hheap, hclosures, [], [], by simp, by simp, rfl⟩
  have hstep : InStep (Agree s.env.frames s'.env.frames s.past.get s'.past.get)
      (callClosure on closure args loc s) (callClosure on closure args loc s') := by
    rw [callClosure_eq]
    refine Secluded.calling ?_
    rw [Eval.bind_apply, Eval.bind_apply]
    refine (Secluded.frame hbody _ _ (hagree.record .called)).andThen (fun _ _ h => h) ?_
    exact fun completion s s' h => .done h
  exact hstep.endingFor takes offered hroom hroom'

/-- A function that hands over a step and returns nothing. -/
def handingOver : Closure :=
  ⟨.mk (some "f") ["x"] [.capture 3] true false none, 0⟩

theorem result_handingOver (on : Setting) (args : List Value) (loc : Location) {s : State}
    (h : s.env.depth < Limit.callDepth) :
    ((callClosure on handingOver args loc s).endingFor (fun _ => true) []).result =
      .ok .undefined := by
  rw [callClosure_eq, Eval.bind_apply]
  change Ending.result (Process.endingFor _ _
    ((if s.env.depth ≥ Limit.callDepth then Eval.raise loc .callDepth else _ : Eval Value)
      (s.record .called))) = _
  rw [if_neg (Nat.not_le.mpr h)]
  simp [handingOver, callBody, execStmts, Function.body, hoist, execEach_capture, execEach,
    Eval.frame, Eval.leaving, Eval.changeEnv, Eval.capture_apply, Eval.hand, Process.andThen,
    Process.leaving, Process.endingFor, Completion.result]

/-- The function called by the script and by itself. -/
theorem call_of_agree_handingOver :
    let on : Setting := ⟨callWithin ["x"] 1, 1, ["x"]⟩
    let outer : State := { State.initial with env := ⟨.root, [⟨"<script>", 0⟩]⟩ }
    let inner : State := { State.initial with env := ⟨.root, [⟨"f", 0⟩, ⟨"<script>", 0⟩]⟩ }
    let ending := (callClosure on handingOver [.null] ⟨1, 1⟩ outer).endingFor (fun _ => true) []
    let ending' := (callClosure on handingOver [.null] ⟨1, 1⟩ inner).endingFor (fun _ => true) []
    ending.offered = ending'.offered ∧ ending.result = ending'.result ∧
      ending.final.heap = ending'.final.heap := by
  intro on outer inner ending ending'
  have hroom (ending : Ending Value) (h : ending.result = .ok .undefined) : ¬ ending.Overflow := by
    rintro ⟨stop, hstop, -⟩
    cases h.symm.trans hstop
  have houter : outer.env.depth < Limit.callDepth := by decide
  have hinner : inner.env.depth < Limit.callDepth := by decide
  obtain ⟨hoffered, hresult, hagree⟩ := call_of_agree ["x"] 1 handingOver [.null] ⟨1, 1⟩ outer
    inner rfl rfl rfl (fun _ => true) [] (hroom _ (result_handingOver on [.null] ⟨1, 1⟩ houter))
    (hroom _ (result_handingOver on [.null] ⟨1, 1⟩ hinner))
  exact ⟨hoffered, hresult, hagree.heap⟩

end StepTrace
