import StepTrace.Proofs.ArrayLimit
import StepTrace.Proofs.EnvironmentTrails
import StepTrace.Proofs.LetLoops
import StepTrace.Proofs.RoundScopes

/-!
# The variables of a round

A loop over variables declared with `let` has a scope for every round, in which the variables of
that round are. When a body has ended, a new scope takes the place of that of the round and begins
with the values that the variables have then. From there on nothing in the loop is in the old scope
any more; only functions that were made in it are. So such a function sees the variables of its own
round for good, as they were when the body ended, unless one of these functions assigns to them.

* `LetLoop.Ready`: what is known wherever a loop arrives.
* `LetLoop.Separate`: what is known of the variables of one round.
* `round_variables`: both, for every run of every loop.
-/

namespace StepTrace

open Syntax

/-! ## Loops -/

/-- All environments on record between the two states have the property. -/
def State.Throughout (s s' : State) (P : Environment → Prop) : Prop :=
  ∃ moments, s'.past.get = s.past.get ++ moments ∧ ∀ moment ∈ moments, P moment.env

namespace State.Throughout

variable {s s' s'' : State} {P Q : Environment → Prop}

theorem refl (s : State) : s.Throughout s P :=
  ⟨[], (List.append_nil _).symm, List.forall_mem_nil _⟩

theorem trans (h : s.Throughout s' P) (h' : s'.Throughout s'' P) : s.Throughout s'' P := by
  obtain ⟨moments, hpast, hmoments⟩ := h
  obtain ⟨moments', hpast', hmoments'⟩ := h'
  refine ⟨moments ++ moments', ?_, List.forall_mem_append.mpr ⟨hmoments, hmoments'⟩⟩
  rw [hpast', hpast, List.append_assoc]

theorem mono (h : s.Throughout s' P) (himp : ∀ env, P env → Q env) : s.Throughout s' Q := by
  obtain ⟨moments, hpast, hmoments⟩ := h
  exact ⟨moments, hpast, fun moment hmoment => himp _ (hmoments moment hmoment)⟩

theorem changeEnv {change : Environment → Environment} (h : P (change s.env)) :
    s.Throughout (s.changeEnv change) P :=
  ⟨[⟨.changed, change s.env, s.heap⟩], by simp [State.changeEnv, State.record], by simpa using h⟩

end State.Throughout

namespace LetLoop

variable {loop : LetLoop} {on : Setting} {s t t' b e : State} {α : Type}

/-- While there are so many frames, running code finds the names of the loop in scope number
`lower` or in later ones. -/
def Uses (loop : LetLoop) (depth lower : Nat) (env : Environment) : Prop :=
  env.depth = depth → env.Finds loop.names lower

theorem Uses.mono {depth lower lower' : Nat} {env : Environment} (h : loop.Uses depth lower env)
    (hle : lower' ≤ lower) : loop.Uses depth lower' env :=
  fun hdepth => (h hdepth).mono hle

/-- With so many frames, running code is in scope number `scope` or further inside, and finds the
names of the loop there; with more, a function is running that has been called. -/
def Inside (loop : LetLoop) (depth scope : Nat) (env : Environment) : Prop :=
  env.StaysIn depth scope ∧ loop.Uses depth scope env

/-- Wherever a run of the loop arrives that began in state `s`: the frames are the same, but in a
block that has been made since, in which the names are bound. -/
structure Ready (loop : LetLoop) (s t : State) : Prop where
  grounded : t.Grounded
  block : t.env.InBlock s.env.frames
  made : s.env.scopes.size ≤ t.env.current
  bound : ∀ name ∈ loop.names, (t.env.scopes.binding? name t.env.current).isSome

namespace Ready

theorem running (h : loop.Ready s t) : t.env.Running := by
  have hholds : (Station.inner s.env.frames).Holds t.env := h.block
  exact hholds.running h.grounded.toValid

/-- Code of the frame that leads back to the same frames. -/
theorem of_trails (h : loop.Ready s t) (h' : Trails (.outer t.env.frames) t t') :
    loop.Ready s t' ∧ t'.env.current = t.env.current := by
  obtain ⟨⟨hframes, -⟩, moments, htrail⟩ := h'
  have hcurrent := Environment.current_congr hframes
  have hretains := htrail.leads.retains
  refine ⟨⟨htrail.grounded, h.block.of_retains hretains hframes, hcurrent ▸ h.made, ?_⟩, hcurrent⟩
  intro name hname
  rw [hcurrent]
  exact hretains.bound _ _ (h.bound name hname)

theorem trails {m : Eval α} (h : loop.Ready s t)
    (hm : ∀ frames, LeavesTrail (.outer frames) m) :
    (m t).Ends (fun _ t' => Trails (.outer t.env.frames) t t')
      fun _ t' => Trails (.outer t.env.frames) t t' :=
  hm t.env.frames t h.grounded ⟨rfl, h.running.nonempty⟩

theorem of_mayEnd {m : Eval α} {a : α} (h : loop.Ready s t)
    (hm : ∀ frames, LeavesTrail (.outer frames) m) (hend : (m t).MayEnd a t') :
    loop.Ready s t' ∧ t'.env.current = t.env.current :=
  h.of_trails ((h.trails hm).of_mayEnd hend)

/-- The loop goes over to the next round. -/
theorem nextRound (h : loop.Ready s t) :
    loop.Ready s (t.changeEnv (StepTrace.nextRound loop.names)) := by
  have hspares := h.running.spares_nextRound h.block loop.names
  have hcurrent := h.running.current_nextRound loop.names
  refine ⟨h.grounded.of_retains rfl (h.running.nextRound loop.names).toValid hspares.toRetains,
    h.running.inBlock_nextRound h.block loop.names, ?_, fun name hname => ?_⟩
  · change _ ≤ (StepTrace.nextRound loop.names t.env).current
    rw [hcurrent]
    exact Nat.le_trans h.made (Nat.le_of_lt h.grounded.current_lt)
  · change (Scopes.binding? (StepTrace.nextRound loop.names t.env).scopes name
      (StepTrace.nextRound loop.names t.env).current).isSome
    rw [hcurrent, h.running.binding?_nextRound]
    simp [hname]

/-- Code of the frame of the loop stays in the scope of the round, and finds the names there. -/
theorem staysIn (h : loop.Ready s t) (h' : Trails (.outer t.env.frames) t t') :
    t.Throughout t' (loop.Inside s.env.depth t.env.current) := by
  obtain ⟨-, moments, htrail⟩ := h'
  refine ⟨moments, htrail.past, fun moment hmoment => ?_⟩
  have hdepth : t.env.frames.length = s.env.depth := by
    obtain ⟨frame, rest, i, hs, ht, -⟩ := h.block
    simp [Environment.depth, hs, ht]
  have hstays : moment.env.StaysIn s.env.depth t.env.current := hdepth ▸ htrail.stays moment hmoment
  have hretains := htrail.leads.retains_of_mem hmoment
  refine ⟨hstays, fun hsame => Environment.finds_of_mem (hstays.2 hsame) fun name hname => ?_⟩
  exact hretains.bound _ _ (h.bound name hname)

theorem uses (h : loop.Ready s t) (h' : Trails (.outer t.env.frames) t t') :
    t.Throughout t' (loop.Uses s.env.depth t.env.current) :=
  (h.staysIn h').mono fun _ hinside => hinside.2

end Ready

end LetLoop

/-! ### Declarations -/

theorem Value.length_firstElements {heap : Heap} {value : Value} {count : Nat} {items : List Value}
    (h : value.firstElements heap count = .ok items) : items.length = count := by
  unfold Value.firstElements at h
  cases helements : value.elements heap with
  | error cause =>
      rw [helements] at h
      cases h
  | ok elements =>
      rw [helements] at h
      obtain rfl := Except.ok.inj h
      rw [Array.length_toList, size_resize]

/-- A declaration binds all names of its target in the innermost scope. -/
theorem bound_bind (target : Binder) (value : Value) (loc : Location) {s : State}
    (hthere : s.env.current < s.env.scopes.size) :
    (bind .letDecl target value loc s).Ends
      (fun _ s' => ∀ name ∈ target.names,
        (s'.env.scopes.binding? name s.env.current).isSome) fun _ _ => True := by
  cases target with
  | name name =>
      intro x hx
      exact Environment.isSome_binding?_bindAll_let [(name, value)] hthere hx
  | list names =>
      have hitems : (Eval.consultAt loc (fun heap => value.firstElements heap names.length) s).Ends
          (fun items s' => s' = s ∧ items.length = names.length) fun _ _ => True := by
        change (Eval.allow loc (value.firstElements s.heap names.length) s).Ends _ _
        cases hfirst : value.firstElements s.heap names.length with
        | error cause => trivial
        | ok items => exact ⟨rfl, Value.length_firstElements hfirst⟩
      rw [bind_list]
      refine hitems.bind ?_
      rintro items _ ⟨rfl, hlength⟩ x hx
      refine Environment.isSome_binding?_bindAll_let (names.zip items) hthere ?_
      rwa [List.map_fst_zip (by omega)]

/-- What code of the frame that comes to its end has left behind. -/
theorem LeavesTrail.ends {α : Type} {m : Eval α} (hm : ∀ frames, LeavesTrail (.outer frames) m)
    {s : State} (hs : s.Grounded) (hframes : s.env.frames ≠ []) :
    (m s).Ends (fun _ s' => s'.Grounded ∧ s.env.Retains s'.env ∧ s'.env.frames = s.env.frames)
      fun _ _ => True := by
  refine (hm s.env.frames s hs ⟨rfl, hframes⟩).mono ?_ fun _ _ _ => trivial
  rintro a s' ⟨⟨hframes', -⟩, moments, htrail⟩
  exact ⟨htrail.grounded, htrail.leads.retains, hframes'⟩

/-- Declarations bind all their names in the innermost scope. -/
theorem bound_declarators {on : Setting}
    (hcall : Discipline.trailing.accord.Callers on.call on.call) (loc : Location)
    (ds : List Declarator) {s : State} (hs : s.Grounded) (hframes : s.env.frames ≠ []) :
    (execDeclarators on .letDecl loc ds s).Ends
      (fun _ s' => ∀ name ∈ ds.flatMap Declarator.names,
        (s'.env.scopes.binding? name s.env.current).isSome) fun _ _ => True := by
  induction ds generalizing s with
  | nil => exact (LeavesTrail.ends (Discipline.trailing.declarators hcall .letDecl loc · []) hs
      hframes).mono (fun _ _ _ => by simp) fun _ _ _ => trivial
  | cons d rest ih =>
      obtain ⟨target, value⟩ := d
      rw [execDeclarators_cons]
      have hvalue := LeavesTrail.ends (Discipline.trailing.optional hcall value) hs hframes
      refine hvalue.bind ?_
      rintro value s₁ ⟨hs₁, -, hframes₁⟩
      have hcurrent₁ := Environment.current_congr hframes₁
      have hframes₁' : s₁.env.frames ≠ [] := hframes₁ ▸ hframes
      have hbind := (LeavesTrail.ends (Discipline.trailing.bindTarget .letDecl target value loc) hs₁
        hframes₁').and (bound_bind target value loc hs₁.current_lt)
      refine (hbind.mono (fun _ _ h => h) fun _ _ _ => trivial).bind ?_
      rintro _ s₂ ⟨⟨hs₂, -, hframes₂⟩, hbound⟩
      have hcurrent₂ := Environment.current_congr hframes₂
      have hframes₂' : s₂.env.frames ≠ [] := hframes₂ ▸ hframes₁'
      have hrest := (LeavesTrail.ends (Discipline.trailing.declarators hcall .letDecl loc · rest)
        hs₂ hframes₂').and (ih hs₂ hframes₂')
      refine hrest.mono ?_ fun _ _ _ => trivial
      rintro _ s₃ ⟨⟨-, hretains, -⟩, hothers⟩ name hname
      rw [hcurrent₂, hcurrent₁] at hothers
      rw [hcurrent₁] at hbound
      rw [List.flatMap_cons] at hname
      rcases List.mem_append.mp hname with hname | hname
      · exact hretains.bound _ _ (hbound name hname)
      · exact hothers name hname

namespace LetLoop

variable {loop : LetLoop} {on : Setting} {s t t' b e : State}
  (hcall : Discipline.trailing.accord.Callers on.call on.call)

section Clauses

include hcall

theorem leavesTrail_declare (frames : List Frame) :
    LeavesTrail (.outer frames) (loop.declare on) :=
  Discipline.trailing.declarators hcall .letDecl loop.start frames loop.declarators

theorem leavesTrail_test (frames : List Frame) : LeavesTrail (.outer frames) (loop.test on) := by
  unfold test
  cases loop.condition with
  | none => exact LeavesTrail.pure true
  | some e => exact Discipline.trailing.condition hcall e frames

theorem leavesTrail_round (frames : List Frame) : LeavesTrail (.outer frames) (loop.round on) :=
  Discipline.trailing.scope hcall loop.body frames

theorem leavesTrail_increment (frames : List Frame) :
    LeavesTrail (.outer frames) (loop.increment on) := by
  unfold increment
  cases loop.step with
  | none => exact LeavesTrail.pure ()
  | some e =>
      exact LeavesTrail.bind (Discipline.trailing.expr hcall e frames) fun _ => LeavesTrail.pure ()

/-! ### Arriving -/

/-- The declaration binds the names in the block of the loop. -/
theorem Ready.declared (hs : s.Grounded) (hframes : s.env.frames ≠ [])
    (h : (loop.declare on (s.changeEnv Environment.enterBlock)).MayEnd () t) :
    loop.Ready s t := by
  have hrunning : s.env.Running := ⟨hs.toValid, hframes⟩
  have hentered : (s.changeEnv Environment.enterBlock).Grounded :=
    hs.of_retains rfl hs.toValid.enterBlock hrunning.spares_enterBlock.toRetains
  have hnonempty : (s.changeEnv Environment.enterBlock).env.frames ≠ [] :=
    hrunning.enterBlock.nonempty
  obtain ⟨hgrounded, hretains, hsame⟩ :=
    (LeavesTrail.ends (leavesTrail_declare hcall) hentered hnonempty).of_mayEnd h
  have hbound := (bound_declarators hcall loop.start loop.declarators hentered
    hnonempty).of_mayEnd h
  have hcurrent := Environment.current_congr hsame
  refine ⟨hgrounded, hrunning.inBlock_enterBlock.of_retains hretains hsame, ?_,
    fun name hname => ?_⟩
  · rw [hcurrent]
    exact Nat.le_of_eq hrunning.current_enterBlock.symm
  · rw [hcurrent]
    exact hbound name hname

theorem Arrives.ready (hs : s.Grounded) (hframes : s.env.frames ≠ []) {rounds : List Round}
    (h : loop.Arrives on s rounds t) : loop.Ready s t := by
  induction h with
  | declared h => exact .declared hcall hs hframes h
  | round _ htest hbody _ hstep ih =>
      obtain ⟨hb, -⟩ := ih.of_mayEnd (leavesTrail_test hcall) htest
      obtain ⟨he, -⟩ := hb.of_mayEnd (leavesTrail_round hcall) hbody
      exact (he.nextRound.of_mayEnd (leavesTrail_increment hcall) hstep).1

/-- Every round has a scope of its own, which has been made later than those of the rounds
before. -/
theorem Arrives.pairwise (hs : s.Grounded) (hframes : s.env.frames ≠ []) {rounds : List Round}
    (h : loop.Arrives on s rounds t) :
    (rounds.map (·.begun.env.current) ++ [t.env.current]).Pairwise (· < ·) := by
  induction h with
  | declared h => exact List.pairwise_singleton _ _
  | @round rounds t b e t' c h htest hbody hgoesOn hstep ih =>
      obtain ⟨hb, hcurrent⟩ := (h.ready hcall hs hframes).of_mayEnd (leavesTrail_test hcall) htest
      obtain ⟨he, hsame⟩ := hb.of_mayEnd (leavesTrail_round hcall) hbody
      obtain ⟨-, hnext⟩ := he.nextRound.of_mayEnd (leavesTrail_increment hcall) hstep
      have hlater : b.env.current < t'.env.current := by
        rw [hnext, ← hsame]
        exact Nat.lt_of_lt_of_eq he.grounded.current_lt (he.running.current_nextRound _).symm
      rw [← hcurrent] at ih
      rw [List.map_append, List.map_singleton]
      refine List.pairwise_append.mpr ⟨ih, List.pairwise_singleton _ _, fun i hi j hj => ?_⟩
      obtain rfl := List.mem_singleton.mp hj
      rcases List.mem_append.mp hi with hi | hi
      · have hbelow := (List.pairwise_append.mp ih).2.2 i hi _ (List.mem_singleton_self _)
        exact Nat.lt_trans hbelow hlater
      · obtain rfl := List.mem_singleton.mp hi
        exact hlater

end Clauses

/-! ### The code of the loop -/

/-- A clause of the loop. -/
theorem Ready.clause {α : Type} {m : Eval α} (h : loop.Ready s t)
    (hm : ∀ frames, LeavesTrail (.outer frames) m) :
    (m t).Ends
      (fun _ t' => (loop.Ready s t' ∧ t'.env.current = t.env.current) ∧
        t.Throughout t' (loop.Uses s.env.depth t.env.current))
      fun _ t' => t.Throughout t' (loop.Uses s.env.depth t.env.current) :=
  (h.trails hm).mono (fun _ _ h' => ⟨h.of_trails h', h.uses h'⟩) fun _ _ h' => h.uses h'

include hcall

/-- From a new round on, the names are found in its scope. -/
theorem Ready.step (hnames : loop.names ≠ []) (h : loop.Ready s e) :
    (execStep on loop.names loop.step e).Ends
      (fun _ t' => (loop.Ready s t' ∧ t'.env.current = e.env.scopes.size) ∧
        e.Throughout t' (loop.Uses s.env.depth e.env.scopes.size))
      fun _ t' => e.Throughout t' (loop.Uses s.env.depth e.env.scopes.size) := by
  have hnext := h.nextRound
  have hcurrent := h.running.current_nextRound loop.names
  have hcopied : e.Throughout (e.changeEnv (StepTrace.nextRound loop.names))
      (loop.Uses s.env.depth e.env.scopes.size) := by
    refine .changeEnv fun _ => Environment.finds_of_mem ?_ (hcurrent ▸ hnext.bound)
    rw [← hcurrent]
    exact Scopes.self_mem_outwards _ _
  have hclause := hnext.clause (m := loop.increment on) (leavesTrail_increment hcall)
  have hsame : (e.changeEnv (StepTrace.nextRound loop.names)).env.current = e.env.scopes.size :=
    hcurrent
  rw [hsame] at hclause
  rw [execStep_eq hnames, Eval.bind_apply]
  exact hclause.mono (fun _ _ h' => ⟨h'.1, hcopied.trans h'.2⟩) fun _ _ h' => hcopied.trans h'

/-- If all rounds that are left find the names in the scope that they begin with, they do so behind
the step to the next round. -/
theorem Ready.step_goOn (hnames : loop.names ≠ []) (h : loop.Ready s e) {bound : Nat}
    (hrest : ∀ t, loop.Ready s t → (loop.goOn on bound t).Ends
      (fun _ s' => t.Throughout s' (loop.Uses s.env.depth t.env.current))
      fun _ s' => t.Throughout s' (loop.Uses s.env.depth t.env.current)) :
    (((do
        execStep on loop.names loop.step
        loop.goOn on bound) : Eval Completion) e).Ends
      (fun _ s' => e.Throughout s' (loop.Uses s.env.depth e.env.scopes.size))
      fun _ s' => e.Throughout s' (loop.Uses s.env.depth e.env.scopes.size) := by
  refine Process.Ends.bind (h.step hcall hnames) ?_
  rintro _ t ⟨⟨ht, hcurrent⟩, hstep⟩
  have hothers := hrest t ht
  rw [hcurrent] at hothers
  exact hothers.mono (fun _ _ h' => hstep.trans h') fun _ _ h' => hstep.trans h'

/-- All rounds that are left find the names in the scope of the next one or in later ones. -/
theorem Ready.goOn (hnames : loop.names ≠ []) (h : loop.Ready s t) (bound : Nat) :
    (loop.goOn on bound t).Ends
      (fun _ s' => t.Throughout s' (loop.Uses s.env.depth t.env.current))
      fun _ s' => t.Throughout s' (loop.Uses s.env.depth t.env.current) := by
  induction bound generalizing t with
  | zero => exact .refl t
  | succ bound ih =>
      unfold LetLoop.goOn
      rw [Eval.rounds]
      refine (h.clause (leavesTrail_test hcall)).bind ?_
      rintro goesOn b ⟨⟨hb, hcurrent⟩, htest⟩
      cases goesOn with
      | false => exact htest
      | true =>
          have hround : (loop.round on b).Ends
              (fun _ e => (loop.Ready s e ∧ e.env.current = t.env.current) ∧
                t.Throughout e (loop.Uses s.env.depth t.env.current))
              fun _ e => t.Throughout e (loop.Uses s.env.depth t.env.current) := by
            have hclause := hb.clause (m := loop.round on) (leavesTrail_round hcall)
            rw [hcurrent] at hclause
            exact hclause.mono (fun _ _ h' => ⟨h'.1, htest.trans h'.2⟩)
              fun _ _ h' => htest.trans h'
          refine Process.Ends.bind hround ?_
          rintro c e ⟨⟨he, hsame⟩, hbody⟩
          cases c.endsLoop? with
          | some completion => exact hbody
          | none =>
              -- the scopes of the rounds to come are made later than that of this one
              have hmade : t.env.current ≤ e.env.scopes.size :=
                hsame ▸ Nat.le_of_lt he.grounded.current_lt
              have hbehind (s' : State)
                  (h' : e.Throughout s' (loop.Uses s.env.depth e.env.scopes.size)) :
                  t.Throughout s' (loop.Uses s.env.depth t.env.current) :=
                hbody.trans (h'.mono fun _ huses => huses.mono hmade)
              exact (he.step_goOn hcall hnames fun t' ht' => ih ht').mono
                (fun _ s' => hbehind s') fun _ s' => hbehind s'

end LetLoop

/-! ## Behind the round -/

namespace LetLoop

variable {loop : LetLoop} {on : Setting} {s e : State}

/-- The scope of the round is left: the loop comes to its end, or goes over to the next round. -/
def Leaves (loop : LetLoop) (change : Environment → Environment) : Prop :=
  change = Environment.leaveBlock ∨ change = nextRound loop.names

namespace Ready

variable {change : Environment → Environment}

theorem sealed_left (h : loop.Ready s e) (hs : s.Grounded) (hleaves : loop.Leaves change)
    {j : Nat} (hj : e.env.current ≤ j) (hthere : j < e.env.scopes.size) :
    (change e.env).Sealed j := by
  have hbelow : ∀ frame ∈ s.env.frames, frame.scope < e.env.current := fun frame hframe =>
    Nat.lt_of_lt_of_le (hs.frames frame hframe) h.made
  obtain rfl | rfl := hleaves
  · exact Environment.sealed_leaveBlock h.block hbelow hj hthere
  · exact Environment.sealed_nextRound h.running h.block hbelow hj hthere loop.names

/-- No scope that is there is changed by this. -/
theorem same_left (h : loop.Ready s e) (hleaves : loop.Leaves change) {j : Nat}
    (hthere : j < e.env.scopes.size) :
    (change e.env).scopes.place? j = e.env.scopes.place? j ∧
      ∀ name, (change e.env).scopes.binding? name j = e.env.scopes.binding? name j := by
  obtain rfl | rfl := hleaves
  · rw [Environment.scopes_leaveBlock]
    exact ⟨rfl, fun _ => rfl⟩
  · refine ⟨(h.running.spares_nextRound h.block loop.names).place j hthere, fun name => ?_⟩
    rw [h.running.binding?_nextRound]
    exact if_neg fun hnew => absurd hnew.1 (Nat.ne_of_lt hthere)

/-- Whatever code is in the scope of the round again is that of a function that was made there. -/
theorem captured_later (h : loop.Ready s e) (hs : s.Grounded) (hleaves : loop.Leaves change)
    {later : List Moment} (hlater : (e.changeEnv change).Continues later) {moment : Moment}
    (hmoment : moment ∈ later)
    (hsees : e.env.current ∈ moment.env.scopes.outwards moment.env.current) :
    moment.env.Captured e.env.current := by
  obtain ⟨⟨env', hleads⟩, hvalid⟩ := hlater.leads
  have hsealed := h.sealed_left hs hleaves (Nat.le_refl _) h.grounded.current_lt
  refine (hleads.stays hsealed hmoment).captured (hvalid moment hmoment) (fun hnil => ?_) hsees
  -- without a call the only scope is the root, which is older than the loop
  have hroot : moment.env.current = 0 := by simp [Environment.current, hnil]
  have hle := Scopes.le_of_mem_outwards hsees
  have hpos := hs.rooted.size_pos
  have hmade := h.made
  omega

/-- A closure that is there when a body has ended sees a variable of the round as it is then, as
long as no function that has captured the round assigns to it. -/
theorem lookup?_later (h : loop.Ready s e) (hs : s.Grounded) (hleaves : loop.Leaves change)
    {later : List Moment} (hlater : (e.changeEnv change).Continues later) {name : String}
    (hkept : (change e.env :: later.map Moment.env).IsChain fun env env' =>
      env.Captured e.env.current → env'.scopes.binding? name e.env.current =
        env.scopes.binding? name e.env.current)
    {closure : Closure} (hclosure : closure ∈ e.closures)
    (hholder : e.env.scopes.holder? name closure.scope = some e.env.current) :
    ∀ moment ∈ later, moment.env.scopes.lookup? name closure.scope =
      e.env.scopes.lookup? name closure.scope := by
  intro moment hmoment
  obtain ⟨⟨env', hleads⟩, -⟩ := hlater.leads
  have hscope := h.grounded.closures closure hclosure
  have hsame {j : Nat} (hj : j ≤ closure.scope) :=
    h.same_left hleaves (Nat.lt_of_le_of_lt hj hscope)
  have hholder' : (change e.env).scopes.holder? name closure.scope = some e.env.current := by
    rw [Scopes.holder?_congr_upTo (fun j hj => (hsame hj).1) fun j hj => (hsame hj).2 name]
    exact hholder
  have hsize : closure.scope < (change e.env).scopes.size := by
    rw [← Scopes.isSome_place?, (hsame (Nat.le_refl _)).1]
    exact Scopes.isSome_place?.mpr hscope
  rw [hleads.lookup? hsize hholder' (fun j hj hle => ?_) hkept hmoment,
    Scopes.lookup?_congr_upTo (fun j hj => (hsame hj).1) fun j hj => (hsame hj).2 name]
  exact h.sealed_left hs hleaves hle
    (Nat.lt_of_le_of_lt (Scopes.le_of_mem_outwards hj) hscope)

end Ready

/-! ## Rounds -/

/-- While the body runs, code of the frame of the loop that began in state `s` is in the scope in
which the body began, or further inside. It reads and writes the names there or in scopes that were
made later. -/
def StaysInside (loop : LetLoop) (on : Setting) (s b : State) : Prop :=
  (loop.round on b).Ends
    (fun _ s' => b.Throughout s' (loop.Inside s.env.depth b.env.current))
    fun _ s' => b.Throughout s' (loop.Inside s.env.depth b.env.current)

/-- What is known of the variables of a round of a loop that began in state `s`. The body of the
round began in state `b`, and it has ended in state `e`. -/
structure Separate (loop : LetLoop) (on : Setting) (s b e : State) : Prop where
  /-- When the body has ended, the frame is in the scope of the round again. -/
  ended : e.env.current = b.env.current
  /-- The next round begins in a new scope, in which each name has the value that it had in the
  scope of this round, and in which nothing else is bound. -/
  copied : let next := nextRound loop.names e.env
    b.env.current < next.current ∧ ∀ name,
      if name ∈ loop.names then
        ∃ binding, e.env.scopes.binding? name b.env.current = some binding ∧
          next.scopes.binding? name next.current = some ⟨binding.value, false⟩
      else next.scopes.binding? name next.current = none
  /-- The last clause is carried out in this scope, and so are the next test and body. -/
  next : ∀ t, (loop.increment on (e.changeEnv (nextRound loop.names))).MayEnd () t →
    t.env.current = (nextRound loop.names e.env).current
  /-- The last clause and all that the loop does from then on read and write the names in this
  scope or in later ones. -/
  later : ∀ bound, (((do
      execStep on loop.names loop.step
      loop.goOn on bound) : Eval Completion) e).Ends
    (fun _ s' => e.Throughout s' (loop.Uses s.env.depth (nextRound loop.names e.env).current))
    fun _ s' => e.Throughout s' (loop.Uses s.env.depth (nextRound loop.names e.env).current)
  /-- When a run has left the scope of the round, it is in it again only in functions that were made
  in it. -/
  captured : ∀ change, loop.Leaves change → ∀ later, (e.changeEnv change).Continues later →
    ∀ moment ∈ later, b.env.current ∈ moment.env.scopes.outwards moment.env.current →
      moment.env.Captured b.env.current
  /-- From then on a closure sees a variable of the round as it was when the body had ended, unless
  one of these functions assigns to it. -/
  kept : ∀ change, loop.Leaves change → ∀ later, (e.changeEnv change).Continues later →
    ∀ name, ((change e.env :: later.map Moment.env).IsChain fun env env' =>
      env.Captured b.env.current → env'.scopes.binding? name b.env.current =
        env.scopes.binding? name b.env.current) →
    ∀ closure ∈ e.closures, e.env.scopes.holder? name closure.scope = some b.env.current →
    ∀ moment ∈ later, moment.env.scopes.lookup? name closure.scope =
      e.env.scopes.lookup? name closure.scope

theorem Ready.staysInside (hcall : Discipline.trailing.accord.Callers on.call on.call) {b : State}
    (h : loop.Ready s b) : loop.StaysInside on s b :=
  (h.trails (leavesTrail_round hcall)).mono (fun _ _ h' => h.staysIn h') fun _ _ h' => h.staysIn h'

theorem Ready.separate (hcall : Discipline.trailing.accord.Callers on.call on.call)
    (hnames : loop.names ≠ []) (hs : s.Grounded) {b : State} (h : loop.Ready s b)
    {c : Completion} (hbody : (loop.round on b).MayEnd c e) : loop.Separate on s b e := by
  obtain ⟨he, hsame⟩ := h.of_mayEnd (leavesTrail_round hcall) hbody
  have hnext := he.nextRound
  have hcurrent := he.running.current_nextRound loop.names
  refine ⟨hsame, ⟨?_, fun name => ?_⟩, fun t ht => ?_, fun bound => ?_, ?_, ?_⟩
  · rw [hcurrent, ← hsame]
    exact he.grounded.current_lt
  · rw [hcurrent, he.running.binding?_nextRound, ← hsame]
    split
    · next hname =>
        obtain ⟨binding, hbinding⟩ := Option.isSome_iff_exists.mp (he.bound name hname)
        refine ⟨binding, hbinding, ?_⟩
        rw [if_pos ⟨rfl, hname⟩, Environment.lookup?_of_binding? hbinding, Option.getD_some]
    · next hname =>
        rw [if_neg fun hboth => hname hboth.2]
        refine Option.eq_none_iff_forall_ne_some.mpr fun binding hbinding => ?_
        exact Nat.lt_irrefl _ (Scopes.lt_of_binding? hbinding)
  · exact (hnext.of_mayEnd (leavesTrail_increment hcall) ht).2
  · rw [hcurrent]
    exact he.step_goOn hcall hnames fun t ht => ht.goOn hcall hnames bound
  · intro change hleaves later hlater moment hmoment
    rw [← hsame]
    exact he.captured_later hs hleaves hlater hmoment
  · intro change hleaves later hlater name
    rw [← hsame]
    intro hkept closure hclosure hholder
    exact he.lookup?_later hs hleaves hlater hkept hclosure hholder

end LetLoop

/-- **Every round has variables of its own.** Take a loop whose initializer declares names with
`let`, a state in which it begins and whatever the consumer answers. The initial state is grounded
(`State.grounded_initial`), and all code leads from grounded states to grounded states
(`Discipline.trailing`).

* A run of the statement is one that arrives somewhere and ends there: it has had some rounds and
  has gone over from each of them to the next.
* The scopes in which the rounds begin are pairwise distinct; each is made later than the one
  before it. The test leaves the frame in the scope of the round, and the body is carried out there.
* When a body has ended, the rounds are separate from then on (`LetLoop.Separate`): the next scope
  begins with the values that the variables have then, all further code of the loop reads and writes
  the variables there or in later scopes, and for good a closure that sees a variable of the round
  sees the value that it has then, unless a function made in the round assigns to it. -/
theorem round_variables (names : List String) (bound : Nat) (loop : LetLoop)
    (hnames : loop.names ≠ []) {s : State} (hs : s.Grounded) (hframes : s.env.frames ≠ []) :
    let on : Setting := ⟨callWithin names bound, bound, names⟩
    (∀ c s', (execStmt on loop.stmt s).MayEnd c s' ↔
      ∃ rounds t left, rounds.length < bound ∧ loop.Arrives on s rounds t ∧
        loop.Ends on t c left ∧ s' = left.changeEnv Environment.leaveBlock) ∧
    ∀ rounds t, loop.Arrives on s rounds t →
      (rounds.map (·.begun.env.current) ++ [t.env.current]).Pairwise (· < ·) ∧
      ∀ b, (loop.test on t).MayEnd true b →
        b.env.current = t.env.current ∧ loop.StaysInside on s b ∧
        ∀ c e, (loop.round on b).MayEnd c e → loop.Separate on s b e := by
  intro on
  have hcall : Discipline.trailing.accord.Callers on.call on.call :=
    Discipline.trailing.callers names bound
  refine ⟨fun c s' => LetLoop.mayEnd_iff hnames, fun rounds t h => ?_⟩
  refine ⟨h.pairwise hcall hs hframes, fun b htest => ?_⟩
  obtain ⟨hb, hcurrent⟩ :=
    (h.ready hcall hs hframes).of_mayEnd (LetLoop.leavesTrail_test hcall) htest
  exact ⟨hcurrent, hb.staysInside hcall, fun c e hbody => hb.separate hcall hnames hs hbody⟩


theorem round_variables_twice :
    let seesI : Expr := .function (.mk none [] [.return (some (.variable "i" ⟨2, 9⟩)) ⟨2, 9⟩]
      false true none) ⟨2, 3⟩
    let loop : LetLoop :=
      ⟨[.mk (.name "i") (some (.bool true ⟨1, 14⟩))], ⟨1, 6⟩, none, none, [.expr seesI ⟨2, 3⟩],
        ⟨1, 1⟩⟩
    let on : Setting := ⟨callWithin [] 2, 2, []⟩
    let s := State.initial.changeEnv (·.enterCall "<script>" 0)
    (loop.names ≠ [] ∧ s.Grounded ∧ s.env.frames ≠ []) ∧
      ∃ b e t e', loop.Arrives on s [⟨b, e⟩] t ∧ b.env.current < t.env.current ∧
        loop.Separate on s b e ∧ loop.Separate on s t e' := by
  intro seesI loop on s
  have hnames : loop.names ≠ [] := by decide
  have hinitial := State.grounded_initial
  have hs : s.Grounded := hinitial.of_retains rfl
    (hinitial.toValid.enterCall _ hinitial.rooted.size_pos)
    (Environment.spares_enterCall hinitial.toValid _ hinitial.rooted.size_pos).toRetains
  have hframes : s.env.frames ≠ [] := List.cons_ne_nil _ _
  have htest (s : State) : (loop.test on s).MayEnd true s := .done _ _
  have hround (s : State) : ∃ e, (loop.round on s).MayEnd .normal e := by
    simp only [LetLoop.round, loop, execBlock, execEach, execStmt, evalExpr, seesI]
    exact ⟨_, .done _ _⟩
  have hstep (s : State) : (loop.increment on s).MayEnd () s := .done _ _
  obtain ⟨-, hrounds⟩ := round_variables [] 2 loop hnames hs hframes
  obtain ⟨b, hb⟩ : ∃ b, loop.Arrives on s [] b := ⟨_, .declared (.done _ _)⟩
  obtain ⟨e, he⟩ := hround b
  have ht := hb.round (htest b) he rfl (hstep _)
  obtain ⟨e', he'⟩ := hround (e.changeEnv (nextRound loop.names))
  obtain ⟨hdistinct, hlast⟩ := hrounds _ _ ht
  obtain ⟨-, -, hseparate⟩ := (hrounds _ _ hb).2 b (htest b)
  obtain ⟨-, -, hseparate'⟩ := hlast _ (htest _)
  exact ⟨⟨hnames, hs, hframes⟩, b, e, _, e', ht, List.pairwise_pair.mp hdistinct,
    hseparate _ e he, hseparate' _ e' he'⟩

end StepTrace
