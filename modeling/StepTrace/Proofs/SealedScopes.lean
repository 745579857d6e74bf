import StepTrace.Proofs.CorrespondingPrograms
import StepTrace.Proofs.Frames
import StepTrace.Proofs.ScopeChains

/-!
# Sealed scopes

A scope that no call under way is in can be reached again only through a function that was made
inside of it: a call of such a function begins in a new scope further in. So nothing is bound in a
sealed scope any more, and what is bound there is changed only by an assignment in the code of such
a function, from which the scope is captured (`Environment.Captured`). A scope once sealed stays
sealed.

* `Environment.Sealed`: no call is in the scope, except through a function made inside.
* `Environment.Spares`: a change that leaves alone what sealed scopes bind. Going into a block, a
  round or a call and out of it again is one, and so is every declaration.
* `Environment.Next`: such a change, or an assignment; `Environment.Leads` is one after the other.
* `Environment.Leads.sealed`: what holds of a sealed scope from then on.
-/

namespace StepTrace.Environment

variable {env env' env'' : Environment} {i : Nat} {name : String}

/-- No call under way is in scope number `i`, except through a function that was made inside. -/
structure Sealed (env : Environment) (i : Nat) : Prop where
  there : i < env.scopes.size
  apart : ∀ frame ∈ env.frames, i ∈ env.scopes.outwards frame.scope →
    i < env.scopes.functionScope frame.scope

/-- The function whose code is running was made in scope number `i` or further inside. -/
def Captured (env : Environment) (i : Nat) : Prop :=
  ∃ made, env.scopes.parent? (env.scopes.functionScope env.current) = some made ∧
    i ∈ env.scopes.outwards made

/-- Running code that sees a sealed scope is that of a function that has captured it. -/
theorem Sealed.captured (h : env.Sealed i) (hvalid : env.Valid) (hframes : env.frames ≠ [])
    (hsees : i ∈ env.scopes.outwards env.current) : env.Captured i := by
  obtain ⟨frame, rest, hframe⟩ := List.exists_cons_of_ne_nil hframes
  have hcurrent : env.current = frame.scope := by simp [current, hframe]
  rw [hcurrent] at hsees
  have hfunction := hvalid.rooted.functionScope_mem_outwards hvalid.current_lt
  unfold Captured
  rw [hcurrent] at hfunction ⊢
  have hframe' : frame ∈ env.frames := by simp [hframe]
  exact Scopes.exists_parent_of_lt hfunction hsees (h.apart frame hframe' hsees)

/-! ## Changes that leave sealed scopes alone -/

/-- The scopes are still there, in their places, and bind the names that they did. -/
structure Retains (env env' : Environment) : Prop where
  place : ∀ i < env.scopes.size, env'.scopes.place? i = env.scopes.place? i
  bound : ∀ name i, (env.scopes.binding? name i).isSome → (env'.scopes.binding? name i).isSome

namespace Retains

theorem refl (env : Environment) : Retains env env :=
  ⟨fun _ _ => rfl, fun _ _ h => h⟩

theorem size_le (h : Retains env env') : env.scopes.size ≤ env'.scopes.size := by
  refine Nat.le_of_not_lt fun hlt => ?_
  have hnone : env'.scopes.place? env'.scopes.size = none := by simp [Scopes.place?]
  have hsome := Scopes.isSome_place?.mpr hlt
  rw [← h.place _ hlt, hnone] at hsome
  cases hsome

theorem trans (h : Retains env env') (h' : Retains env' env'') : Retains env env'' :=
  ⟨fun i hi => (h'.place i (Nat.lt_of_lt_of_le hi h.size_le)).trans (h.place i hi),
    fun name i hi => h'.bound name i (h.bound name i hi)⟩

theorem outwards (h : Retains env env') (hi : i < env.scopes.size) :
    env'.scopes.outwards i = env.scopes.outwards i :=
  Scopes.outwards_congr_upTo fun j hj => h.place j (Nat.lt_of_le_of_lt hj hi)

end Retains

/-- Sealed scopes stay sealed, and bind what they did. -/
structure Spares (env env' : Environment) : Prop extends Retains env env' where
  stays : ∀ i, env.Sealed i → env'.Sealed i
  binding : ∀ i, env.Sealed i → ∀ name, env'.scopes.binding? name i = env.scopes.binding? name i

namespace Spares

theorem refl (env : Environment) : Spares env env :=
  ⟨.refl env, fun _ h => h, fun _ _ _ => rfl⟩

theorem trans (h : Spares env env') (h' : Spares env' env'') : Spares env env'' :=
  ⟨h.toRetains.trans h'.toRetains, fun i hi => h'.stays i (h.stays i hi),
    fun i hi name => (h'.binding i (h.stays i hi) name).trans (h.binding i hi name)⟩

end Spares

/-! ### Bindings -/

theorem retains_declareIn (env : Environment) (i : Nat) (name : String) (value : Value)
    (isConst : Bool) : Retains env (env.declareIn i name value isConst) := by
  refine ⟨fun j _ => Scopes.place?_declare env.scopes i name value isConst j, fun x j h => ?_⟩
  rw [declareIn, Scopes.binding?_declare_eq]
  split
  · rfl
  · exact h

theorem Sealed.declareIn {j : Nat} (h : env.Sealed j) (i : Nat) (name : String) (value : Value)
    (isConst : Bool) : (env.declareIn i name value isConst).Sealed j := by
  have hplace := Scopes.place?_declare env.scopes i name value isConst
  refine ⟨?_, fun frame hframe hsees => ?_⟩
  · rw [← Scopes.isSome_place?, Environment.declareIn, hplace]
    exact Scopes.isSome_place?.mpr h.there
  · rw [Environment.declareIn, Scopes.outwards_congr hplace] at hsees
    rw [Environment.declareIn, Scopes.functionScope_congr_upTo fun k _ => hplace k]
    exact h.apart frame hframe hsees

/-- A binding in a scope that belongs to the code of a call under way, so that it is not sealed. -/
theorem spares_declareIn (h : ∀ j, env.Sealed j → j ≠ i) (name : String) (value : Value)
    (isConst : Bool) : Spares env (env.declareIn i name value isConst) where
  toRetains := retains_declareIn env i name value isConst
  stays _ hj := hj.declareIn i name value isConst
  binding j hj x := by
    rw [declareIn, Scopes.binding?_declare_eq, if_neg fun hsame => h j hj hsame.1]

theorem retains_bindAll (env : Environment) (kind : Syntax.DeclKind)
    (entries : List (String × Value)) : Retains env (env.bindAll kind entries) := by
  induction entries generalizing env with
  | nil => exact .refl env
  | cons entry rest ih =>
      refine Retains.trans ?_ (ih _)
      cases kind with
      | varDecl => exact retains_declareIn env _ _ _ _
      | letDecl => exact retains_declareIn env _ _ _ _
      | constDecl => exact retains_declareIn env _ _ _ _

/-- A call is under way, and the environment is valid. -/
structure Running (env : Environment) : Prop extends env.Valid where
  nonempty : env.frames ≠ []

namespace Running

theorem exists_frame (h : env.Running) : ∃ frame ∈ env.frames, env.current = frame.scope := by
  obtain ⟨frame, rest, hframe⟩ := List.exists_cons_of_ne_nil h.nonempty
  exact ⟨frame, by simp [hframe], by simp [current, hframe]⟩

/-- The innermost scope of running code is not sealed. -/
theorem ne_current (h : env.Running) {j : Nat} (hj : env.Sealed j) : j ≠ env.current := by
  obtain ⟨frame, hframe, hcurrent⟩ := h.exists_frame
  rintro rfl
  have hlt := hj.apart frame hframe (hcurrent ▸ Scopes.self_mem_outwards _ _)
  have hmem := h.rooted.functionScope_mem_outwards (h.frames frame hframe)
  have hle := Scopes.le_of_mem_outwards hmem
  omega

/-- Nor is the outermost scope of its function. -/
theorem ne_functionScope (h : env.Running) {j : Nat} (hj : env.Sealed j) :
    j ≠ env.scopes.functionScope env.current := by
  obtain ⟨frame, hframe, hcurrent⟩ := h.exists_frame
  rintro rfl
  have hmem := h.rooted.functionScope_mem_outwards (h.frames frame hframe)
  have hlt := hj.apart frame hframe (hcurrent ▸ hmem)
  rw [hcurrent] at hlt
  exact Nat.lt_irrefl _ hlt

theorem bindAs (h : env.Running) (kind : Syntax.DeclKind) (name : String) (value : Value) :
    (env.bindAs kind name value).Running := by
  cases kind with
  | varDecl => exact ⟨h.toValid.declareIn _ _ _ _, h.nonempty⟩
  | letDecl => exact ⟨h.toValid.declareIn _ _ _ _, h.nonempty⟩
  | constDecl => exact ⟨h.toValid.declareIn _ _ _ _, h.nonempty⟩

/-- Declarations bind names in the innermost scope or in that of the function. -/
theorem spares_bindAs (h : env.Running) (kind : Syntax.DeclKind) (name : String) (value : Value) :
    Spares env (env.bindAs kind name value) := by
  cases kind with
  | varDecl => exact spares_declareIn (fun _ => h.ne_functionScope) name value false
  | letDecl => exact spares_declareIn (fun _ => h.ne_current) name value false
  | constDecl => exact spares_declareIn (fun _ => h.ne_current) name value true

theorem bindAll (h : env.Running) (kind : Syntax.DeclKind) (entries : List (String × Value)) :
    (env.bindAll kind entries).Running := by
  induction entries generalizing env with
  | nil => exact h
  | cons entry rest ih => exact ih (h.bindAs kind entry.1 entry.2)

theorem spares_bindAll (h : env.Running) (kind : Syntax.DeclKind)
    (entries : List (String × Value)) : Spares env (env.bindAll kind entries) := by
  induction entries generalizing env with
  | nil => exact .refl env
  | cons entry rest ih =>
      exact (h.spares_bindAs kind entry.1 entry.2).trans (ih (h.bindAs kind entry.1 entry.2))

end Running

/-! ### Blocks and calls -/

/-- A new scope, to which no sealed one is closer than it was. -/
theorem spares_push {parent : Nat} (hparent : parent < env.scopes.size) {isFunction : Bool}
    (hblock : isFunction = false → ∃ frame ∈ env.frames, frame.scope = parent)
    (hvalid : env.Valid) {frame : Frame} {rest : List Frame}
    (hframe : frame.scope = env.scopes.size) (hrest : ∀ other ∈ rest, other ∈ env.frames) :
    Spares env ⟨env.scopes.push (.blank (some parent) isFunction), frame :: rest⟩ := by
  have hplace (j : Nat) := Scopes.place?_push env.scopes (some parent) isFunction j
  have hold {j k : Nat} (hj : j < env.scopes.size) (hk : k ≤ j) :
      Scopes.place? (env.scopes.push (.blank (some parent) isFunction)) k =
        env.scopes.place? k := by
    rw [hplace, if_neg (by omega)]
  have hnew : Scopes.place? (env.scopes.push (.blank (some parent) isFunction)) env.scopes.size =
      some (some parent, isFunction) := by
    rw [hplace, if_pos rfl]
  refine ⟨⟨fun j hj => hold hj (Nat.le_refl j), fun x j hj => ?_⟩, fun j hj => ⟨?_, ?_⟩,
    fun j _ x => Scopes.binding?_push _ _ _ x j⟩
  · rw [Scopes.binding?_push]
    exact hj
  · rw [Array.size_push]
    exact Nat.lt_succ_of_lt hj.there
  · intro other hother hsees
    dsimp only at hother hsees ⊢
    rcases List.mem_cons.mp hother with rfl | hother
    · have hchain : Scopes.outwards (env.scopes.push (.blank (some parent) isFunction))
          env.scopes.size = env.scopes.size :: env.scopes.outwards parent := by
        rw [Scopes.outwards_some (by rw [Scopes.parent?_eq, hnew]; rfl) hparent,
          Scopes.outwards_congr_upTo fun k hk => hold hparent hk]
      rw [hframe, hchain] at hsees
      have hsees' := (List.mem_cons.mp hsees).resolve_left (Nat.ne_of_lt hj.there)
      rw [hframe]
      cases isFunction with
      | true =>
          rw [Scopes.functionScope_of_function hnew]
          exact hj.there
      | false =>
          obtain ⟨outer, houter, rfl⟩ := hblock rfl
          rw [Scopes.functionScope_of_block hnew hparent,
            Scopes.functionScope_congr_upTo fun k hk => hold hparent hk]
          exact hj.apart outer houter hsees'
    · have hlt := hvalid.frames other (hrest other hother)
      rw [Scopes.outwards_congr_upTo fun k hk => hold hlt hk] at hsees
      rw [Scopes.functionScope_congr_upTo fun k hk => hold hlt hk]
      exact hj.apart other (hrest other hother) hsees

theorem spares_enterCall (h : env.Valid) (name : String) {parent : Nat}
    (hparent : parent < env.scopes.size) : Spares env (env.enterCall name parent) :=
  spares_push hparent (by simp) h rfl fun _ hother => hother

/-- Frames may be left, but no scope. -/
theorem spares_leaveCall (env : Environment) : Spares env env.leaveCall where
  place _ _ := rfl
  bound _ _ h := h
  stays _ h := ⟨h.there, fun frame hframe => h.apart frame (List.mem_of_mem_tail hframe)⟩
  binding _ _ _ := rfl

namespace Running

theorem enterBlock (h : env.Running) : env.enterBlock.Running := by
  refine ⟨h.toValid.enterBlock, ?_⟩
  obtain ⟨scopes, _ | ⟨frame, rest⟩⟩ := env
  · exact absurd rfl h.nonempty
  · simp [Environment.enterBlock]

theorem spares_enterBlock (h : env.Running) : Spares env env.enterBlock := by
  obtain ⟨scopes, _ | ⟨frame, rest⟩⟩ := env
  · exact absurd rfl h.nonempty
  · exact spares_push (h.frames frame List.mem_cons_self)
      (fun _ => ⟨frame, List.mem_cons_self, rfl⟩) h.toValid rfl
      fun _ hother => List.mem_cons_of_mem _ hother

theorem leaveBlock (h : env.Running) : env.leaveBlock.Running := by
  refine ⟨h.toValid.leaveBlock, ?_⟩
  have hdepth := (advances_leaveBlock env).depth
  intro hnil
  refine h.nonempty (List.length_eq_zero_iff.mp (hdepth.symm.trans ?_))
  exact congrArg List.length hnil

/-- The running code is in a block, and leaves it. -/
theorem spares_leaveBlock (h : env.Running) {parent : Nat}
    (hblock : env.scopes.place? env.current = some (some parent, false)) :
    Spares env env.leaveBlock := by
  have hparent : env.scopes.parent? env.current = some parent := by
    rw [Scopes.parent?_eq, hblock]
    rfl
  have hlt := h.rooted.parent?_lt hparent
  have hfunction := Scopes.functionScope_of_block hblock hlt
  have hchain := Scopes.outwards_some hparent hlt
  have hleft : env.leaveBlock = env.moveTo parent := by
    unfold Environment.leaveBlock
    rw [hparent]
  rw [hleft]
  obtain ⟨scopes, _ | ⟨frame, rest⟩⟩ := env
  · exact absurd rfl h.nonempty
  · refine ⟨⟨fun _ _ => rfl, fun _ _ hbound => hbound⟩, fun j hj => ⟨hj.there, ?_⟩,
      fun _ _ _ => rfl⟩
    intro other hother hsees
    dsimp only [moveTo, current] at hother hsees hfunction hchain ⊢
    rcases List.mem_cons.mp hother with rfl | hother
    · rw [← hfunction]
      refine hj.apart frame List.mem_cons_self ?_
      dsimp only
      rw [hchain]
      exact List.mem_cons_of_mem _ hsees
    · exact hj.apart other (List.mem_cons_of_mem _ hother) hsees

end Running

/-! ### Rounds -/

/-- The frames, but that the first of them is in a block of the scope that it has there. -/
def InBlock (frames : List Frame) (env : Environment) : Prop :=
  ∃ frame rest i, frames = frame :: rest ∧ env.frames = { frame with scope := i } :: rest ∧
    env.scopes.place? i = some (some frame.scope, false)

variable {frames : List Frame}

namespace InBlock

theorem inside (h : env.InBlock frames) : Inside frames env := by
  obtain ⟨frame, rest, i, rfl, hi, hplace⟩ := h
  refine ⟨i, hi, ?_⟩
  rw [Scopes.parent?_eq, hplace]
  rfl

theorem place?_current (h : env.InBlock frames) :
    ∃ parent, env.scopes.place? env.current = some (some parent, false) := by
  obtain ⟨frame, rest, i, rfl, hi, hplace⟩ := h
  exact ⟨frame.scope, by simpa [current, hi] using hplace⟩

theorem of_retains (h : env.InBlock frames) (hretains : env.Retains env')
    (hframes : env'.frames = env.frames) : env'.InBlock frames := by
  obtain ⟨frame, rest, i, rfl, hi, hplace⟩ := h
  refine ⟨frame, rest, i, rfl, hframes.trans hi, ?_⟩
  have hlt : i < env.scopes.size := Scopes.isSome_place?.mp (by rw [hplace]; rfl)
  rw [hretains.place i hlt, hplace]

end InBlock

theorem frames_bindAs (env : Environment) (kind : Syntax.DeclKind) (name : String)
    (value : Value) : (env.bindAs kind name value).frames = env.frames := by
  cases kind with
  | varDecl => rfl
  | letDecl => rfl
  | constDecl => rfl

theorem frames_bindAll (env : Environment) (kind : Syntax.DeclKind)
    (entries : List (String × Value)) : (env.bindAll kind entries).frames = env.frames := by
  induction entries generalizing env with
  | nil => rfl
  | cons entry rest ih => exact (ih _).trans (frames_bindAs env kind entry.1 entry.2)

/-- The new scope of a round binds the names as the scope before it. -/
theorem nextRound_eq (names : List String) (env : Environment) : nextRound names env =
    env.leaveBlock.enterBlock.bindAll .letDecl
      (names.map fun name => (name, (env.lookup? name).getD .undefined)) :=
  rfl

namespace Running

theorem inBlock_enterBlock (h : env.Running) : env.enterBlock.InBlock env.frames := by
  obtain ⟨scopes, _ | ⟨frame, rest⟩⟩ := env
  · exact absurd rfl h.nonempty
  · refine ⟨frame, rest, scopes.size, rfl, rfl, ?_⟩
    exact (Scopes.place?_push _ _ _ _).trans (if_pos rfl)

theorem nextRound (h : env.Running) (names : List String) :
    (StepTrace.nextRound names env).Running := by
  rw [nextRound_eq]
  exact h.leaveBlock.enterBlock.bindAll _ _

theorem spares_nextRound (h : env.Running) (hblock : env.InBlock frames) (names : List String) :
    Spares env (StepTrace.nextRound names env) := by
  obtain ⟨parent, hparent⟩ := hblock.place?_current
  rw [nextRound_eq]
  exact ((h.spares_leaveBlock hparent).trans h.leaveBlock.spares_enterBlock).trans
    (h.leaveBlock.enterBlock.spares_bindAll _ _)

theorem inBlock_nextRound (h : env.Running) (hblock : env.InBlock frames) (names : List String) :
    (StepTrace.nextRound names env).InBlock frames := by
  have hentered := h.leaveBlock.inBlock_enterBlock
  rw [hblock.inside.frames_leaveBlock] at hentered
  rw [nextRound_eq]
  exact hentered.of_retains (h.leaveBlock.enterBlock.spares_bindAll _ _).toRetains
    (frames_bindAll _ _ _)

end Running

/-! ## From moment to moment -/

/-- What running code does to its environment: an assignment, or a change that leaves sealed
scopes alone. -/
inductive Next (env : Environment) : Environment → Prop
  | spare {env' : Environment} (h : env.Spares env') : Next env env'
  | assign {name : String} {i : Nat} (value : Value) (hrunning : env.Running)
    (h : env.assignee name = .ok i) : Next env (env.store i name value)

namespace Next

theorem retains (h : env.Next env') : Retains env env' := by
  cases h with
  | spare h => exact h.toRetains
  | assign value _ h => exact retains_declareIn env _ _ _ _

theorem stays (h : env.Next env') (hi : env.Sealed i) : env'.Sealed i := by
  cases h with
  | spare h => exact h.stays i hi
  | assign value _ h => exact hi.declareIn _ _ _ _

/-- No name is bound anew in a sealed scope. -/
theorem isSome_binding? (h : env.Next env') (hi : env.Sealed i) (name : String) :
    (env'.scopes.binding? name i).isSome = (env.scopes.binding? name i).isSome := by
  cases h with
  | spare h => rw [h.binding i hi name]
  | @assign x j value _ h =>
      obtain ⟨-, binding, hbinding, -⟩ := Scopes.holder?_of_assignee h
      rw [store, declareIn, Scopes.binding?_declare_eq]
      split
      · next hsame =>
          obtain ⟨rfl, rfl, -⟩ := hsame
          rw [hbinding]
          rfl
      · rfl

/-- A sealed scope keeps its bindings, if running code has not captured it. -/
theorem binding? (h : env.Next env') (hi : env.Sealed i) (hnot : ¬ env.Captured i)
    (name : String) : env'.scopes.binding? name i = env.scopes.binding? name i := by
  cases h with
  | spare h => exact h.binding i hi name
  | @assign x j value hrunning h =>
      rw [store, declareIn, Scopes.binding?_declare_eq]
      refine if_neg ?_
      rintro ⟨rfl, -, -⟩
      have hholds := Scopes.holder?_eq_some_iff.mp (Scopes.holder?_of_assignee h).1
      exact hnot (hi.captured hrunning.toValid hrunning.nonempty hholds.1)

end Next

/-- From the environment through all the moments, and on to the last environment. -/
def Leads (env : Environment) : List Moment → Environment → Prop
  | [], env' => env' = env
  | moment :: rest, env' => env.Next moment.env ∧ moment.env.Leads rest env'

namespace Leads

variable {moments moments' : List Moment} {moment : Moment}

theorem append_iff : env.Leads (moments ++ moments') env' ↔
    ∃ middle, env.Leads moments middle ∧ middle.Leads moments' env' := by
  induction moments generalizing env with
  | nil => simp [Leads]
  | cons moment rest ih =>
      rw [List.cons_append]
      simp only [Leads, ih, and_assoc, exists_and_left]

theorem append (h : env.Leads moments env') (h' : env'.Leads moments' env'') :
    env.Leads (moments ++ moments') env'' :=
  append_iff.mpr ⟨env', h, h'⟩

/-- The environment behind some moments is that of the last of them. -/
theorem eq_of_append (h : env.Leads (moments ++ [moment]) env') : env' = moment.env := by
  obtain ⟨middle, -, -, hlast⟩ := append_iff.mp h
  exact hlast

theorem retains (h : env.Leads moments env') : Retains env env' := by
  induction moments generalizing env with
  | nil => exact h ▸ .refl env
  | cons moment rest ih => exact h.1.retains.trans (ih h.2)

theorem retains_of_mem (h : env.Leads moments env') (hmoment : moment ∈ moments) :
    Retains env moment.env := by
  obtain ⟨before, after, rfl⟩ := List.append_of_mem hmoment
  obtain ⟨middle, hbefore, hnext, -⟩ := append_iff.mp h
  exact hbefore.retains.trans hnext.retains

theorem stays (h : env.Leads moments env') (hi : env.Sealed i) (hmoment : moment ∈ moments) :
    moment.env.Sealed i := by
  induction moments generalizing env with
  | nil => cases hmoment
  | cons first rest ih =>
      rcases List.mem_cons.mp hmoment with rfl | hmoment
      · exact h.1.stays hi
      · exact ih h.2 (h.1.stays hi) hmoment

/-- A sealed scope binds the same names ever after, and what they are bound to is changed only by
code of functions that have captured it. -/
theorem binding? (h : env.Leads moments env') (hi : env.Sealed i) {name : String}
    (hkept : (env :: moments.map Moment.env).IsChain fun env env' =>
      env.Captured i → env'.scopes.binding? name i = env.scopes.binding? name i)
    (hmoment : moment ∈ moments) :
    moment.env.scopes.binding? name i = env.scopes.binding? name i := by
  induction moments generalizing env with
  | nil => cases hmoment
  | cons first rest ih =>
      obtain ⟨hnext, hrest⟩ := h
      obtain ⟨hfirst, hothers⟩ := List.isChain_cons_cons.mp hkept
      have hsame : first.env.scopes.binding? name i = env.scopes.binding? name i := by
        by_cases hcaptured : env.Captured i
        · exact hfirst hcaptured
        · exact hnext.binding? hi hcaptured name
      rcases List.mem_cons.mp hmoment with rfl | hmoment
      · exact hsame
      · exact (ih hrest (hnext.stays hi) hothers hmoment).trans hsame

theorem isSome_binding? (h : env.Leads moments env') (hi : env.Sealed i) (name : String)
    (hmoment : moment ∈ moments) :
    (moment.env.scopes.binding? name i).isSome = (env.scopes.binding? name i).isSome := by
  induction moments generalizing env with
  | nil => cases hmoment
  | cons first rest ih =>
      obtain ⟨hnext, hrest⟩ := h
      have hsame := hnext.isSome_binding? hi name
      rcases List.mem_cons.mp hmoment with rfl | hmoment
      · exact hsame
      · exact (ih hrest (hnext.stays hi) hmoment).trans hsame

/-- What is seen from a scope of a variable in a sealed one, through scopes that are sealed, too,
stays the same unless code of a function that has captured the scope assigns to it. -/
theorem lookup? (h : env.Leads moments env') {scope : Nat} (hi : i < env.scopes.size)
    (hholder : env.scopes.holder? name i = some scope)
    (hsealed : ∀ j ∈ env.scopes.outwards i, scope ≤ j → env.Sealed j)
    (hkept : (env :: moments.map Moment.env).IsChain fun env env' =>
      env.Captured scope → env'.scopes.binding? name scope = env.scopes.binding? name scope)
    (hmoment : moment ∈ moments) :
    moment.env.scopes.lookup? name i = env.scopes.lookup? name i := by
  obtain ⟨hmem, hbound, hnone⟩ := Scopes.holder?_eq_some_iff.mp hholder
  have hsame := h.binding? (hsealed scope hmem (Nat.le_refl scope)) hkept hmoment
  have hholder' : moment.env.scopes.holder? name i = some scope := by
    refine Scopes.holder?_eq_some_iff.mpr ⟨?_, by rwa [hsame], fun j hj hlt => ?_⟩
    · rw [(h.retains_of_mem hmoment).outwards hi]
      exact hmem
    · rw [(h.retains_of_mem hmoment).outwards hi] at hj
      have hnames := h.isSome_binding? (hsealed j hj (Nat.le_of_lt hlt)) name hmoment
      rw [hnone j hj hlt, Option.isSome_none] at hnames
      exact Option.not_isSome_iff_eq_none.mp (by simp [hnames])
  rw [Scopes.lookup?, Scopes.lookup?, hholder, hholder', Option.bind_some, Option.bind_some, hsame]

end Leads

end StepTrace.Environment
