import StepTrace.Proofs.Disciplines
import StepTrace.Proofs.SealedScopes

/-!
# The environments of a run

All that happens to the environment while code runs is on record, moment by moment, and every
moment follows from the one before it by an assignment or by a change that leaves sealed scopes
alone (`Environment.Leads`). Code of a frame stays in the scope in which it began, except while
functions run that it calls, for which there are further frames (`Environment.StaysIn`).

* `State.Grounded`: the scopes form a tree in which frames and closures are.
* `Trail`: what two states have in common between which code of a frame has run.
* `Discipline.trailing`: every piece of the work of a frame leaves such a trail.
* `Capture.Instrumented.leads_run`: the moments of a whole run; `State.Continues`: those behind a
  state to which it has come.
-/

namespace StepTrace

open Syntax

variable {α β : Type} {s s' s'' : State} {moments moments' : List Moment} {env env' : Environment}

/-! ## States -/

/-- The scopes form a tree, and the frames and the closures are in it. -/
structure State.Grounded (s : State) : Prop extends Environment.Valid s.env where
  closures : ∀ closure ∈ s.closures, closure.scope < s.env.scopes.size

namespace State.Grounded

/-- A change of the environment that takes no scope away. -/
theorem of_retains (h : s.Grounded) (hclosures : s'.closures = s.closures)
    (hvalid : s'.env.Valid) (hretains : s.env.Retains s'.env) : s'.Grounded := by
  refine ⟨hvalid, fun closure hclosure => ?_⟩
  rw [hclosures] at hclosure
  exact Nat.lt_of_lt_of_le (h.closures closure hclosure) hretains.size_le

/-- What happens is put on record. -/
theorem record (h : s.Grounded) (event : Event) : (s.record event).Grounded :=
  h.of_retains rfl h.toValid (.refl _)

end State.Grounded

theorem State.grounded_initial : State.initial.Grounded := by
  refine ⟨?_, by simp [State.initial]⟩
  exact Environment.Valid.foldl
    (fun env (entry : String × Value × Bool) h => h.declareIn _ entry.1 entry.2.1 entry.2.2)
    Native.globals Environment.valid_initial

/-! ## Where code stays -/

/-- The innermost scope of code that runs with the frames. -/
def innermost : List Frame → Nat
  | [] => 0
  | frame :: _ => frame.scope

/-- There are at least so many frames, and with just as many code runs in the scope. -/
def Environment.StaysIn (env : Environment) (depth scope : Nat) : Prop :=
  depth ≤ env.depth ∧ (env.depth = depth → scope ∈ env.scopes.outwards env.current)

theorem Environment.staysIn_of_frames {frames : List Frame} (h : env.frames = frames) :
    env.StaysIn frames.length (innermost frames) := by
  subst h
  exact ⟨Nat.le_refl _, fun _ => Scopes.self_mem_outwards _ _⟩

namespace Station

/-- The frames of the station; those below a block. -/
def frames : Station → List Frame
  | .outer frames => frames
  | .inner frames => frames

/-- The environment is at the station, and a call is under way. -/
def Holds : Station → Environment → Prop
  | .outer frames, env => env.frames = frames ∧ frames ≠ []
  | .inner frames, env => env.InBlock frames

variable {station : Station}

theorem Holds.running (h : station.Holds env) (hvalid : env.Valid) : env.Running := by
  refine ⟨hvalid, ?_⟩
  cases station with
  | outer frames => exact h.1 ▸ h.2
  | inner frames =>
      obtain ⟨frame, rest, i, -, hframes, -⟩ := h
      simp [hframes]

theorem Holds.of_retains (h : station.Holds env) (hretains : env.Retains env')
    (hframes : env'.frames = env.frames) : station.Holds env' := by
  cases station with
  | outer frames => exact ⟨hframes.trans h.1, h.2⟩
  | inner frames => exact Environment.InBlock.of_retains h hretains hframes

theorem Holds.staysIn (h : station.Holds env) (hvalid : env.Valid) :
    env.StaysIn station.frames.length (innermost station.frames) := by
  cases station with
  | outer frames => exact Environment.staysIn_of_frames h.1
  | inner frames =>
      obtain ⟨frame, rest, i, rfl, hframes, hplace⟩ := h
      have hparent : env.scopes.parent? i = some frame.scope := by
        rw [Scopes.parent?_eq, hplace]
        rfl
      have hcurrent : env.current = i := by simp [Environment.current, hframes]
      refine ⟨by simp [Environment.depth, hframes, Station.frames], fun _ => ?_⟩
      rw [hcurrent]
      exact Scopes.parent_mem_outwards (Scopes.self_mem_outwards _ _) hparent
        (hvalid.rooted.parent?_lt hparent)

end Station

/-! ## Trails -/

/-- Between the two states code has run that began with the frames; these are the moments. -/
structure Trail (frames : List Frame) (s s' : State) (moments : List Moment) : Prop where
  past : s'.past.get = s.past.get ++ moments
  leads : s.env.Leads moments s'.env
  grounded : s'.Grounded
  valid : ∀ moment ∈ moments, moment.env.Valid
  stays : ∀ moment ∈ moments, moment.env.StaysIn frames.length (innermost frames)

namespace Trail

variable {frames : List Frame}

theorem refl (h : s.Grounded) : Trail frames s s [] :=
  ⟨(List.append_nil _).symm, rfl, h, List.forall_mem_nil _, List.forall_mem_nil _⟩

theorem trans (h : Trail frames s s' moments) (h' : Trail frames s' s'' moments') :
    Trail frames s s'' (moments ++ moments') := by
  refine ⟨?_, h.leads.append h'.leads, h'.grounded, List.forall_mem_append.mpr ⟨h.valid, h'.valid⟩,
    List.forall_mem_append.mpr ⟨h.stays, h'.stays⟩⟩
  rw [h'.past, h.past, List.append_assoc]

/-- One event, behind a change that is not on record yet. -/
theorem record (event : Event) (hpast : s'.past = s.past) (hnext : s.env.Next s'.env)
    (hgrounded : s'.Grounded) (hstays : s'.env.StaysIn frames.length (innermost frames)) :
    Trail frames s (s'.record event) [⟨event, s'.env, s'.heap⟩] := by
  refine ⟨by simp [State.record, hpast], ⟨hnext, rfl⟩, hgrounded.record event, ?_, ?_⟩
  · exact List.forall_mem_singleton.mpr hgrounded.toValid
  · exact List.forall_mem_singleton.mpr hstays

/-- A change of the environment. -/
theorem changeEnv {change : Environment → Environment} (hs : s.Grounded)
    (hnext : s.env.Next (change s.env)) (hvalid : (change s.env).Valid)
    (hstays : (change s.env).StaysIn frames.length (innermost frames)) :
    Trail frames s (s.changeEnv change) [⟨.changed, change s.env, s.heap⟩] := by
  have hchanged : State.Grounded { s with env := change s.env } :=
    hs.of_retains rfl hvalid hnext.retains
  exact record .changed rfl hnext hchanged hstays

/-- What stays in a scope stays in the scope around it, too. -/
theorem widen (h : Trail frames s s' moments) {frames' : List Frame}
    (hstays : ∀ env, s.env.Retains env → env.StaysIn frames.length (innermost frames) →
      env.StaysIn frames'.length (innermost frames')) : Trail frames' s s' moments :=
  ⟨h.past, h.leads, h.grounded, h.valid, fun moment hmoment =>
    hstays moment.env (h.leads.retains_of_mem hmoment) (h.stays moment hmoment)⟩

end Trail

/-- Code has come to its end at the station from which it began. -/
def Trails (station : Station) (s s' : State) : Prop :=
  station.Holds s'.env ∧ ∃ moments, Trail station.frames s s' moments

namespace Trails

variable {station : Station}

theorem refl (hs : s.Grounded) (h : station.Holds s.env) : Trails station s s :=
  ⟨h, [], .refl hs⟩

theorem trans (h : Trails station s s') (h' : Trails station s' s'') : Trails station s s'' := by
  obtain ⟨-, moments, htrail⟩ := h
  obtain ⟨hholds, moments', htrail'⟩ := h'
  exact ⟨hholds, _, htrail.trans htrail'⟩

theorem grounded (h : Trails station s s') : s'.Grounded := by
  obtain ⟨-, moments, htrail⟩ := h
  exact htrail.grounded

/-- An event behind a change after which the frame is still at the station. -/
theorem record (event : Event) (hpast : s'.past = s.past) (hnext : s.env.Next s'.env)
    (hgrounded : s'.Grounded) (h : station.Holds s'.env) :
    Trails station s (s'.record event) :=
  ⟨h, _, .record event hpast hnext hgrounded (h.staysIn hgrounded.toValid)⟩

/-- A change of the environment after which the frame is at the station. -/
theorem changeEnv {change : Environment → Environment} (hs : s.Grounded)
    (hnext : s.env.Next (change s.env)) (hvalid : (change s.env).Valid)
    (h : station.Holds (change s.env)) : Trails station s (s.changeEnv change) :=
  ⟨h, _, .changeEnv hs hnext hvalid (h.staysIn hvalid)⟩

end Trails

/-! ## Computations -/

/-- Where the frame is at the station, it is there again afterwards, and all between is a trail. -/
def LeavesTrail (station : Station) (m : Eval α) : Prop :=
  ∀ s, s.Grounded → station.Holds s.env →
    (m s).Ends (fun _ s' => Trails station s s') fun _ s' => Trails station s s'

namespace LeavesTrail

variable {station : Station} {frames : List Frame}

theorem pure (a : α) : LeavesTrail station (pure a) :=
  fun _ hs hholds => .refl hs hholds

theorem stop (stop : Stop) : LeavesTrail station (Eval.stop stop : Eval α) :=
  fun _ hs hholds => .refl hs hholds

theorem bind {m : Eval α} {f : α → Eval β} (h : LeavesTrail station m)
    (hf : ∀ a, LeavesTrail station (f a)) : LeavesTrail station (m >>= f) := by
  intro s hs hholds
  refine (h s hs hholds).bind fun a s₁ h₁ => ?_
  exact (hf a s₁ h₁.grounded h₁.1).mono (fun _ _ h₂ => h₁.trans h₂) fun _ _ h₂ => h₁.trans h₂

theorem changeEnv {change : Environment → Environment}
    (h : ∀ env : Environment, env.Running → station.Holds env → env.Spares (change env) ∧
      (change env).Valid ∧ station.Holds (change env)) :
    LeavesTrail station (Eval.changeEnv change) := by
  intro s hs hholds
  obtain ⟨hspares, hvalid, hholds'⟩ := h s.env (hholds.running hs.toValid) hholds
  exact .changeEnv hs (.spare hspares) hvalid hholds'

theorem assign (loc : Location) (name : String) (value : Value) :
    LeavesTrail station (Eval.assign loc name value) := by
  intro s hs hholds
  rw [Eval.assign_apply]
  cases hassignee : s.env.assignee name with
  | error refusal =>
      cases refusal
      · exact .refl hs hholds
      · exact .refl hs hholds
  | ok scope =>
      have hnext : s.env.Next (s.env.store scope name value) :=
        .assign value (hholds.running hs.toValid) hassignee
      exact .changeEnv hs hnext (hs.toValid.declareIn scope name value false)
        (hholds.of_retains hnext.retains rfl)

theorem newClosure (f : Function) : LeavesTrail station (Eval.newClosure f) := by
  intro s hs hholds
  refine .record .changed rfl (.spare (.refl _)) ⟨hs.toValid, fun closure hclosure => ?_⟩ hholds
  rcases Array.mem_push.mp hclosure with hclosure | rfl
  · exact hs.closures closure hclosure
  · exact hs.current_lt

theorem capture (names : List String) (line : Nat) :
    LeavesTrail station (Eval.capture names line) := by
  intro s hs hholds
  rw [Eval.capture_apply]
  intro taken
  cases taken
  · exact .refl hs hholds
  · exact .record _ rfl (.spare (.refl _)) hs hholds

theorem complete (stmt : Stmt) (rest : List Stmt) :
    LeavesTrail station (Eval.complete stmt rest) := by
  intro s hs hholds
  unfold Eval.complete
  split
  · exact .record _ rfl (.spare (.refl _)) hs hholds
  · exact .refl hs hholds

theorem bindAll (kind : DeclKind) (entries : List (String × Value)) :
    LeavesTrail station (Eval.changeEnv (·.bindAll kind entries)) := by
  refine changeEnv fun env hrunning hholds => ?_
  have hspares := hrunning.spares_bindAll kind entries
  exact ⟨hspares, (hrunning.bindAll kind entries).toValid,
    hholds.of_retains hspares.toRetains (env.frames_bindAll kind entries)⟩

theorem nextRound (names : List String) :
    LeavesTrail (.inner frames) (Eval.changeEnv (nextRound names)) :=
  changeEnv fun _ hrunning hblock => ⟨hrunning.spares_nextRound hblock names,
    (hrunning.nextRound names).toValid, hrunning.inBlock_nextRound hblock names⟩

/-- What leads back to the same frames leads back to the same block. -/
theorem inside {m : Eval α} (h : ∀ frames, LeavesTrail (.outer frames) m) :
    LeavesTrail (.inner frames) m := by
  intro s hs hblock
  have hholds : (Station.inner frames).Holds s.env := hblock
  have hwiden (s' : State) (h' : Trails (.outer s.env.frames) s s') :
      Trails (.inner frames) s s' := by
    obtain ⟨⟨hframes, -⟩, moments, htrail⟩ := h'
    refine ⟨hblock.of_retains htrail.leads.retains hframes, moments, htrail.widen ?_⟩
    obtain ⟨frame, rest, i, rfl, hi, hplace⟩ := hblock
    intro env hretains hstays
    have hlt : i < s.env.scopes.size := Scopes.isSome_place?.mp (by rw [hplace]; rfl)
    have hparent : env.scopes.parent? i = some frame.scope := by
      rw [Scopes.parent?_eq, hretains.place i hlt, hplace]
      rfl
    have hbelow : frame.scope < i := by
      refine hs.rooted.parent?_lt ?_
      rw [Scopes.parent?_eq, hplace]
      rfl
    dsimp only [Station.frames] at hstays ⊢
    rw [hi] at hstays
    exact ⟨hstays.1, fun hdepth => Scopes.parent_mem_outwards (hstays.2 hdepth) hparent hbelow⟩
  have hrunning := hholds.running hs.toValid
  exact (h s.env.frames s hs ⟨rfl, hrunning.nonempty⟩).mono (fun _ => hwiden) fun _ => hwiden

theorem block {m : Eval α} (h : LeavesTrail (.inner frames) m) :
    LeavesTrail (.outer frames) (Eval.block m) := by
  rintro s hs ⟨rfl, hnonempty⟩
  have hrunning : s.env.Running := ⟨hs.toValid, hnonempty⟩
  have hblock : (Station.inner s.env.frames).Holds s.env.enterBlock := hrunning.inBlock_enterBlock
  have henter : Trail s.env.frames s (s.changeEnv Environment.enterBlock) _ :=
    .changeEnv hs (.spare hrunning.spares_enterBlock) hs.toValid.enterBlock
      (hblock.staysIn hs.toValid.enterBlock)
  have hleave (s₁ : State)
      (h₁ : Trails (.inner s.env.frames) (s.changeEnv Environment.enterBlock) s₁) :
      Trails (.outer s.env.frames) s (s₁.changeEnv Environment.leaveBlock) := by
    obtain ⟨hinner, moments, htrail⟩ := h₁
    have hvalid := htrail.grounded.toValid
    obtain ⟨parent, hparent⟩ := Environment.InBlock.place?_current hinner
    have hframes : s₁.env.leaveBlock.frames = s.env.frames :=
      (Environment.InBlock.inside hinner).frames_leaveBlock
    have hleft : Trail s.env.frames s₁ (s₁.changeEnv Environment.leaveBlock) _ :=
      .changeEnv htrail.grounded (.spare ((hinner.running hvalid).spares_leaveBlock hparent))
        hvalid.leaveBlock (Environment.staysIn_of_frames hframes)
    exact ⟨⟨hframes, hnonempty⟩, _, (henter.trans htrail).trans hleft⟩
  refine Process.Ends.leaving ?_
  exact (h _ henter.grounded hblock).mono (fun _ => hleave) fun _ => hleave

/-- A frame is made, in which the code runs, and left again. -/
theorem frame {name : String} {parent : Nat} {m : Eval α}
    (h : ∀ frames, LeavesTrail (.outer frames) m) (hs : s.Grounded)
    (hparent : parent < s.env.scopes.size) :
    (Eval.frame name parent m s).Ends
      (fun _ s' => s'.env.frames = s.env.frames ∧ ∃ moments, Trail s.env.frames s s' moments)
      fun _ s' => s'.env.frames = s.env.frames ∧ ∃ moments, Trail s.env.frames s s' moments := by
  -- with the new frame there are more than so many
  have habove (env : Environment) {scope : Nat} (hdepth : s.env.frames.length + 1 ≤ env.depth) :
      env.StaysIn s.env.frames.length scope :=
    ⟨by omega, fun hsame => by omega⟩
  have henter : Trail s.env.frames s (s.changeEnv (·.enterCall name parent)) _ :=
    .changeEnv hs (.spare (Environment.spares_enterCall hs.toValid name hparent))
      (hs.toValid.enterCall name hparent) (habove _ (Nat.le_refl _))
  let frames : List Frame := ⟨name, s.env.scopes.size⟩ :: s.env.frames
  have hleave (s₁ : State)
      (h₁ : Trails (.outer frames) (s.changeEnv (·.enterCall name parent)) s₁) :
      s₁.env.leaveCall.frames = s.env.frames ∧
        ∃ moments, Trail s.env.frames s (s₁.changeEnv Environment.leaveCall) moments := by
    obtain ⟨⟨hframes₁, -⟩, moments, htrail⟩ := h₁
    have hframes : s₁.env.leaveCall.frames = s.env.frames := congrArg List.tail hframes₁
    have hleft : Trail s.env.frames s₁ (s₁.changeEnv Environment.leaveCall) _ :=
      .changeEnv htrail.grounded (.spare (Environment.spares_leaveCall s₁.env))
        htrail.grounded.toValid.leaveCall (Environment.staysIn_of_frames hframes)
    have hcalled : Trail s.env.frames _ s₁ moments :=
      htrail.widen fun env _ hstays => habove env hstays.1
    exact ⟨hframes, _, (henter.trans hcalled).trans hleft⟩
  refine Process.Ends.leaving ?_
  exact (h frames _ henter.grounded ⟨rfl, by simp [frames]⟩).mono (fun _ => hleave) fun _ => hleave

theorem callClosure {on : Setting} (closure : Closure) (args : List Value) (loc : Location)
    (hbody : ∀ frames, LeavesTrail (.outer frames) (callBody on closure args)) (hs : s.Grounded)
    (hframes : (Station.outer frames).Holds s.env) (hscope : closure.scope < s.env.scopes.size) :
    (callClosure on closure args loc s).Ends (fun _ s' => Trails (.outer frames) s s')
      fun _ s' => Trails (.outer frames) s s' := by
  have hcalled : Trails (.outer frames) s (s.record .called) :=
    .record .called rfl (.spare (.refl _)) hs hframes
  obtain ⟨rfl, hnonempty⟩ := hframes
  rw [callClosure_eq, Eval.bind_apply]
  change ((if s.env.depth ≥ Limit.callDepth then Eval.raise loc .callDepth else _ : Eval Value)
    (s.record .called)).Ends _ _
  split
  · exact hcalled
  · have hcall (s' : State) (h' : s'.env.frames = s.env.frames ∧
        ∃ moments, Trail s.env.frames (s.record .called) s' moments) :
        Trails (.outer s.env.frames) s s' :=
      hcalled.trans ⟨⟨h'.1, hnonempty⟩, h'.2⟩
    refine Process.Ends.bind ((frame hbody (hs.record .called) hscope).mono (fun _ => hcall)
      fun _ => hcall) fun c s' h' => ?_
    exact h'

end LeavesTrail

/-- The pieces of the work of a frame leave trails. -/
def Discipline.trailing : Discipline where
  Runs station _ m := LeavesTrail station m
  done _ := LeavesTrail.pure _
  exhausted := LeavesTrail.stop _
  fault _ := LeavesTrail.stop _
  bind := LeavesTrail.bind
  unlessReturned {_ _ f} h hreturn hf := by
    refine h.bind fun c => ?_
    by_cases hc : c.returned = []
    · exact hf c hc
    · cases c with
      | «return» value =>
          rw [hreturn]
          exact LeavesTrail.pure _
      | _ => exact absurd rfl hc
  asking hf s hs hholds := by
    rw [Eval.bind_apply]
    exact hf s.env s.heap s hs hholds
  assign := LeavesTrail.assign
  changeHeap change s hs hholds :=
    .record .changed rfl (.spare (.refl _)) (hs.of_retains rfl hs.toValid (.refl _)) hholds
  unchecked array _ hs hholds := .record _ rfl (.spare (.refl _)) hs hholds
  untested value _ hs hholds := .record _ rfl (.spare (.refl _)) hs hholds
  newClosure := LeavesTrail.newClosure
  capture := LeavesTrail.capture
  complete := LeavesTrail.complete
  leaveWith value _ hs hholds := .record _ rfl (.spare (.refl _)) hs hholds
  bindAll := LeavesTrail.bindAll
  nextRound := LeavesTrail.nextRound
  inside _ := LeavesTrail.inside
  block := LeavesTrail.block
  call hbody place args loc k hnone hsome s hs hholds := by
    rw [Eval.bind_apply]
    change (k s.closures[place]? s).Ends _ _
    cases hclosure : s.closures[place]? with
    | none => exact hnone s hs hholds
    | some closure =>
        rw [hsome]
        exact LeavesTrail.callClosure closure args loc (hbody closure args) hs hholds
          (hs.closures closure (Array.mem_of_getElem? hclosure))

/-! ## Programs -/

/-- All that happens in the run of a program. -/
theorem Capture.Instrumented.leads_run (program : Capture.Instrumented) (bound : Nat)
    (allowance : Option Nat) :
    let run := program.runWithin bound allowance
    State.initial.env.Leads run.final.past.get run.final.env ∧
      ∀ moment ∈ run.final.past.get, moment.env.Valid := by
  have hcall := Discipline.trailing.callers program.candidates bound
  let on : Setting := ⟨callWithin program.candidates bound, bound, program.candidates⟩
  have hstmts (frames : List Frame) : LeavesTrail (.outer frames) (do
      let _ ← execStmts on program.program
      pure () : Eval Unit) :=
    LeavesTrail.bind (Discipline.trailing.stmts hcall program.program frames)
      fun _ => LeavesTrail.pure _
  have hprocess : (program.process bound).Ends _ _ :=
    LeavesTrail.frame hstmts State.grounded_initial State.grounded_initial.rooted.size_pos
  have hrun := hprocess.run allowance #[]
  rw [← Capture.Instrumented.runWithin] at hrun
  have hpast {s' : State} (h : s'.env.frames = State.initial.env.frames ∧
      ∃ moments, Trail State.initial.env.frames .initial s' moments) :
      State.initial.env.Leads s'.past.get s'.env ∧ ∀ moment ∈ s'.past.get, moment.env.Valid := by
    obtain ⟨-, moments, htrail⟩ := h
    have hmoments : s'.past.get = moments := by simp [htrail.past, State.initial]
    rw [hmoments]
    exact ⟨htrail.leads, htrail.valid⟩
  dsimp only
  cases houtcome : (program.runWithin bound allowance).outcome with
  | completed =>
      rw [houtcome] at hrun
      exact hpast hrun
  | stopped stop =>
      rw [houtcome] at hrun
      exact hpast hrun

/-- Some run comes to the state, and then has the moments next. -/
def State.Continues (s : State) (later : List Moment) : Prop :=
  ∃ (program : Capture.Instrumented) (bound : Nat) (allowance : Option Nat),
    s.past.get ++ later <+: (program.runWithin bound allowance).final.past.get

/-- Behind a change of the environment, a run goes on from that environment. -/
theorem State.Continues.leads {change : Environment → Environment}
    (h : (s.changeEnv change).Continues moments) :
    (∃ env', (change s.env).Leads moments env') ∧ ∀ moment ∈ moments, moment.env.Valid := by
  obtain ⟨program, bound, allowance, rest, hrest⟩ := h
  obtain ⟨hrun, hvalid⟩ := program.leads_run bound allowance
  have hpast : (s.changeEnv change).past.get =
      s.past.get ++ [⟨.changed, change s.env, s.heap⟩] := by
    simp [State.changeEnv, State.record]
  rw [← hrest, hpast, List.append_assoc, Environment.Leads.append_iff] at hrun
  obtain ⟨middle, hbefore, hbehind⟩ := hrun
  obtain ⟨env', hlater, -⟩ := Environment.Leads.append_iff.mp hbehind
  rw [hbefore.eq_of_append] at hlater
  refine ⟨⟨env', hlater⟩, fun moment hmoment => hvalid moment ?_⟩
  rw [← hrest]
  exact List.mem_append_left _ (List.mem_append_right _ hmoment)

end StepTrace
