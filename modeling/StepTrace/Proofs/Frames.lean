import StepTrace.Eval.Run

/-!
# Frames and scopes

Going into a block and out of it again leads back to the same frames, also if scopes are added
in between and if the scope of the block is exchanged for a new one, as a loop does with every
round (`Environment.Inside`). The only thing that this needs of the scopes is that they keep
their parents (`Scopes.Grown`), which every change of an environment respects.
-/

namespace StepTrace

namespace Scopes

variable {scopes scopes' scopes'' : Scopes}

/-- Scopes may have been added, and those that were there have the parents that they had. -/
def Grown (scopes scopes' : Scopes) : Prop :=
  ∀ i parent, scopes.parent? i = some parent → scopes'.parent? i = some parent

theorem Grown.refl (scopes : Scopes) : Grown scopes scopes :=
  fun _ _ h => h

theorem Grown.trans (h : Grown scopes scopes') (h' : Grown scopes' scopes'') :
    Grown scopes scopes'' :=
  fun i parent hparent => h' i parent (h i parent hparent)

theorem grown_declare (scopes : Scopes) (i : Nat) (name : String) (value : Value)
    (isConst : Bool) : Grown scopes (scopes.declare i name value isConst) := by
  intro j parent hparent
  obtain ⟨scope, hscope, hfound⟩ := Option.bind_eq_some_iff.mp hparent
  rw [parent?, declare, Array.getElem?_modify, hscope]
  split
  · exact hfound
  · exact hfound

theorem grown_push (scopes : Scopes) (scope : Scope) : Grown scopes (scopes.push scope) := by
  intro i parent hparent
  obtain ⟨found, hfound, hscope⟩ := Option.bind_eq_some_iff.mp hparent
  have hlt : i < scopes.size := (Array.getElem?_eq_some_iff.mp hfound).1
  rw [parent?, Array.getElem?_push, if_neg (Nat.ne_of_lt hlt), hfound]
  exact hscope

end Scopes

namespace Environment

variable {env env' env'' : Environment} {frames : List Frame}

/-- There are as many frames as before, and scopes may have been added. -/
structure Advances (env env' : Environment) : Prop where
  depth : env'.depth = env.depth
  grown : env.scopes.Grown env'.scopes

theorem Advances.refl (env : Environment) : Advances env env :=
  ⟨rfl, Scopes.Grown.refl _⟩

theorem Advances.trans (h : Advances env env') (h' : Advances env' env'') : Advances env env'' :=
  ⟨h'.depth.trans h.depth, h.grown.trans h'.grown⟩

/-! ## Changes of bindings -/

/-- The frames are the same, and scopes may have been added. -/
structure Extends (env env' : Environment) : Prop where
  frames : env'.frames = env.frames
  grown : env.scopes.Grown env'.scopes

namespace Extends

theorem refl (env : Environment) : Extends env env :=
  ⟨rfl, Scopes.Grown.refl _⟩

theorem trans (h : Extends env env') (h' : Extends env' env'') : Extends env env'' :=
  ⟨h'.frames.trans h.frames, h.grown.trans h'.grown⟩

theorem advances (h : Extends env env') : Advances env env' :=
  ⟨congrArg List.length h.frames, h.grown⟩

theorem declareIn (env : Environment) (i : Nat) (name : String) (value : Value)
    (isConst : Bool) : Extends env (env.declareIn i name value isConst) :=
  ⟨rfl, Scopes.grown_declare _ _ _ _ _⟩

/-- One change after the other, for the members of a list. -/
theorem foldl {α : Type} {change : Environment → α → Environment}
    (h : ∀ env x, Extends env (change env x)) (xs : List α) (env : Environment) :
    Extends env (xs.foldl change env) := by
  induction xs generalizing env with
  | nil => exact refl env
  | cons x rest ih => exact (h env x).trans (ih _)

end Extends

/-! ## Blocks -/

theorem advances_enterBlock (env : Environment) : Advances env env.enterBlock := by
  obtain ⟨scopes, _ | ⟨frame, rest⟩⟩ := env
  · exact Advances.refl _
  · exact ⟨rfl, Scopes.grown_push scopes _⟩

theorem advances_moveTo (env : Environment) (i : Nat) : Advances env (env.moveTo i) := by
  obtain ⟨scopes, _ | ⟨frame, rest⟩⟩ := env
  · exact Advances.refl _
  · exact ⟨rfl, Scopes.Grown.refl scopes⟩

theorem advances_leaveBlock (env : Environment) : Advances env env.leaveBlock := by
  unfold Environment.leaveBlock
  split
  · exact Advances.refl env
  · exact advances_moveTo env _

/-- The frames, but that the first of them is in a block of the scope that it has there. Which
block it is does not matter. -/
def Inside (frames : List Frame) (env : Environment) : Prop :=
  match frames with
  | [] => env.frames = []
  | frame :: rest => ∃ i, env.frames = { frame with scope := i } :: rest ∧
      env.scopes.parent? i = some frame.scope

theorem inside_enterBlock (env : Environment) : Inside env.frames env.enterBlock := by
  obtain ⟨scopes, _ | ⟨frame, rest⟩⟩ := env
  · rfl
  · refine ⟨scopes.size, rfl, ?_⟩
    simp [enterBlock, Scopes.parent?, Scope.blank]

namespace Inside

theorem of_extends (h : Inside frames env) (hextends : Extends env env') : Inside frames env' := by
  cases frames with
  | nil => exact hextends.frames.trans h
  | cons frame rest =>
      obtain ⟨i, hi, hparent⟩ := h
      exact ⟨i, hextends.frames.trans hi, hextends.grown i _ hparent⟩

theorem frames_leaveBlock (h : Inside frames env) : env.leaveBlock.frames = frames := by
  obtain ⟨scopes, frames'⟩ := env
  cases frames with
  | nil =>
      obtain rfl : frames' = [] := h
      unfold Environment.leaveBlock
      split
      · rfl
      · rfl
  | cons frame rest =>
      obtain ⟨i, hi, hparent⟩ := h
      dsimp only at hi hparent
      subst hi
      simp [Environment.leaveBlock, current, hparent, moveTo]

end Inside

/-! ## Rounds -/

theorem extends_nextRound (names : List String) (env : Environment) :
    Extends env.leaveBlock.enterBlock (StepTrace.nextRound names env) := by
  unfold StepTrace.nextRound
  exact Extends.foldl (fun env (entry : String × Value) => .declareIn env _ entry.1 entry.2 false)
    _ _

theorem advances_nextRound (names : List String) (env : Environment) :
    Advances env (StepTrace.nextRound names env) :=
  ((advances_leaveBlock env).trans (advances_enterBlock _)).trans
    (extends_nextRound names env).advances

/-- A new round goes on in a block of the same scope. -/
theorem Inside.nextRound (h : Inside frames env) (names : List String) :
    Inside frames (StepTrace.nextRound names env) := by
  have hblock := inside_enterBlock env.leaveBlock
  rw [h.frames_leaveBlock] at hblock
  exact hblock.of_extends (extends_nextRound names env)

end Environment

/-! ## Before a run -/

theorem frames_initial : State.initial.env.frames = [] :=
  (Environment.Extends.foldl
    (fun env (entry : String × Value × Bool) => .declareIn env _ entry.1 entry.2.1 entry.2.2)
    Native.globals .initial).frames

theorem depth_initial : State.initial.env.depth = 0 :=
  congrArg List.length frames_initial

end StepTrace
