import StepTrace.Proofs.SealedScopes

/-!
# The scopes of rounds

A round of a loop over variables declared with `let` ends by going from its scope over to a new one
in its place (`nextRound`). The new scope binds the variables of the loop to the values that they
have at that moment, and nothing else. The scopes that the round has made, and its own, are sealed
from then on, as they are when the loop is left.

* `Running.binding?_nextRound`: what the scope of the next round begins with.
* `Finds`: code reads and writes names in a scope or in later ones.
* `sealed_leaveBlock`, `sealed_nextRound`: the scopes that are left.
-/

namespace StepTrace.Environment

variable {env env' : Environment}

/-! ## New rounds -/

theorem current_congr (h : env'.frames = env.frames) : env'.current = env.current := by
  unfold current
  rw [h]

theorem binding?_bindAs_let (hthere : env.current < env.scopes.size) (name : String)
    (value : Value) (x : String) (j : Nat) :
    (env.bindAs .letDecl name value).scopes.binding? x j =
      if j = env.current ∧ x = name then some ⟨value, false⟩ else env.scopes.binding? x j := by
  change Scopes.binding? (env.scopes.declare _ _ _ _) _ _ = _
  rw [Scopes.binding?_declare_eq]
  simp [hthere]

theorem current_lt_bindAs (hthere : env.current < env.scopes.size) (name : String)
    (value : Value) : (env.bindAs .letDecl name value).current <
      (env.bindAs .letDecl name value).scopes.size := by
  rw [current_congr (frames_bindAs env _ name value)]
  exact Nat.lt_of_lt_of_le hthere (retains_bindAll env .letDecl [(name, value)]).size_le

/-- Each of the names has been bound in the innermost scope to the value that it is given. -/
theorem binding?_bindAll_let (valueOf : String → Value) (names : List String)
    (hthere : env.current < env.scopes.size) (x : String) (j : Nat) :
    (env.bindAll .letDecl (names.map fun name => (name, valueOf name))).scopes.binding? x j =
      if j = env.current ∧ x ∈ names then some ⟨valueOf x, false⟩
      else env.scopes.binding? x j := by
  induction names generalizing env with
  | nil => simp [bindAll]
  | cons name rest ih =>
      have hrest := ih (current_lt_bindAs hthere name (valueOf name))
      rw [current_congr (frames_bindAs env _ name _), binding?_bindAs_let hthere] at hrest
      rw [List.map_cons]
      refine Eq.trans hrest ?_
      by_cases hname : x = name
      · subst hname
        by_cases hj : j = env.current
        · simp [hj]
        · simp [hj]
      · simp [hname]

/-- Whatever the names are bound to, they are bound. -/
theorem isSome_binding?_bindAll_let (entries : List (String × Value)) {name : String}
    (hthere : env.current < env.scopes.size) (h : name ∈ entries.map Prod.fst) :
    ((env.bindAll .letDecl entries).scopes.binding? name env.current).isSome := by
  induction entries generalizing env with
  | nil => cases h
  | cons entry rest ih =>
      rcases List.mem_cons.mp h with rfl | hrest
      · refine (retains_bindAll (env.bindAs .letDecl entry.1 entry.2) .letDecl rest).bound _ _ ?_
        rw [binding?_bindAs_let hthere]
        simp
      · have hbound := ih (current_lt_bindAs hthere entry.1 entry.2) hrest
        rwa [current_congr (frames_bindAs env _ _ _)] at hbound

namespace Running

theorem scopes_enterBlock (h : env.Running) :
    env.enterBlock.scopes = env.scopes.push (.blank (some env.current) false) := by
  obtain ⟨scopes, _ | ⟨frame, rest⟩⟩ := env
  · exact absurd rfl h.nonempty
  · rfl

theorem current_enterBlock (h : env.Running) : env.enterBlock.current = env.scopes.size := by
  obtain ⟨scopes, _ | ⟨frame, rest⟩⟩ := env
  · exact absurd rfl h.nonempty
  · rfl

/-- A round goes on in a scope that has not been there before. -/
theorem current_nextRound (h : env.Running) (names : List String) :
    (StepTrace.nextRound names env).current = env.scopes.size := by
  rw [nextRound_eq, current_congr (frames_bindAll _ _ _), h.leaveBlock.current_enterBlock,
    scopes_leaveBlock]

/-- The new scope binds the names to the values that they had; nothing else is bound anew. -/
theorem binding?_nextRound (h : env.Running) (names : List String) (x : String) (j : Nat) :
    (StepTrace.nextRound names env).scopes.binding? x j =
      if j = env.scopes.size ∧ x ∈ names then some ⟨(env.lookup? x).getD .undefined, false⟩
      else env.scopes.binding? x j := by
  have hcurrent : env.leaveBlock.enterBlock.current = env.scopes.size := by
    rw [h.leaveBlock.current_enterBlock, scopes_leaveBlock]
  have hsize : env.leaveBlock.enterBlock.scopes =
      env.scopes.push (.blank (some env.leaveBlock.current) false) := by
    rw [h.leaveBlock.scopes_enterBlock, scopes_leaveBlock]
  have hthere : env.leaveBlock.enterBlock.current < env.leaveBlock.enterBlock.scopes.size := by
    rw [hcurrent, hsize, Array.size_push]
    exact Nat.lt_succ_self _
  rw [nextRound_eq, binding?_bindAll_let (fun name => (env.lookup? name).getD .undefined) names
    hthere, hcurrent, hsize, Scopes.binding?_push]

end Running

/-- A name that the innermost scope binds has its value there. -/
theorem lookup?_of_binding? {name : String} {binding : Binding}
    (h : env.scopes.binding? name env.current = some binding) :
    env.lookup? name = some binding.value := by
  have hholder : env.scopes.holder? name env.current = some env.current := by
    refine Scopes.holder?_eq_some_iff.mpr ⟨Scopes.self_mem_outwards _ _, by rw [h]; rfl, ?_⟩
    exact fun k hk hlt => absurd (Scopes.le_of_mem_outwards hk) (Nat.not_le.mpr hlt)
  rw [lookup?, Scopes.lookup?, hholder, Option.bind_some, h]
  rfl

/-! ## Reading and writing -/

/-- Running code finds the names, to read or to write them, in scope number `lower` or in scopes
that were made later. -/
def Finds (env : Environment) (names : List String) (lower : Nat) : Prop :=
  ∀ name ∈ names, (∃ i, env.scopes.holder? name env.current = some i ∧ lower ≤ i) ∧
    ∀ i, env.assignee name = .ok i → lower ≤ i

theorem finds_of_mem {names : List String} {scope : Nat}
    (h : scope ∈ env.scopes.outwards env.current)
    (hbound : ∀ name ∈ names, (env.scopes.binding? name scope).isSome) :
    env.Finds names scope := by
  intro name hname
  obtain ⟨i, hholder, hle⟩ := Scopes.exists_holder_of_mem h (hbound name hname)
  refine ⟨⟨i, hholder, hle⟩, fun j hassignee => ?_⟩
  obtain rfl := Option.some.inj (hholder.symm.trans (Scopes.holder?_of_assignee hassignee).1)
  exact hle

theorem Finds.mono {names : List String} {lower lower' : Nat} (h : env.Finds names lower)
    (hle : lower' ≤ lower) : env.Finds names lower' := by
  intro name hname
  obtain ⟨⟨i, hholder, hi⟩, hassignee⟩ := h name hname
  exact ⟨⟨i, hholder, Nat.le_trans hle hi⟩, fun j hj => Nat.le_trans hle (hassignee j hj)⟩

/-! ## Left scopes -/

variable {frames : List Frame} {j : Nat}

/-- A scope that no call under way can see is sealed. -/
theorem sealed_of_unseen (hthere : j < env.scopes.size)
    (h : ∀ frame ∈ env.frames, j ∉ env.scopes.outwards frame.scope) : env.Sealed j :=
  ⟨hthere, fun frame hframe hsees => absurd hsees (h frame hframe)⟩

/-- The scopes made since a block was entered, when the block has been left. -/
theorem sealed_leaveBlock (hblock : env.InBlock frames)
    (hbelow : ∀ frame ∈ frames, frame.scope < env.current) (hj : env.current ≤ j)
    (hthere : j < env.scopes.size) : env.leaveBlock.Sealed j := by
  refine sealed_of_unseen (by rwa [scopes_leaveBlock]) fun frame hframe hsees => ?_
  rw [hblock.inside.frames_leaveBlock] at hframe
  have hle := Scopes.le_of_mem_outwards hsees
  have := hbelow frame hframe
  omega

/-- The scopes made since a block was entered, when another has taken its place. -/
theorem sealed_nextRound (hrunning : env.Running) (hblock : env.InBlock frames)
    (hbelow : ∀ frame ∈ frames, frame.scope < env.current) (hj : env.current ≤ j)
    (hthere : j < env.scopes.size) (names : List String) : (nextRound names env).Sealed j := by
  have hspares := hrunning.spares_nextRound hblock names
  have hnext := hrunning.nextRound names
  have hcurrent := hrunning.current_nextRound names
  obtain ⟨first, rest, i, rfl, hframes, hplace⟩ := hrunning.inBlock_nextRound hblock names
  obtain rfl : i = env.scopes.size := by simpa [current, hframes] using hcurrent
  have hparent : (nextRound names env).scopes.parent? env.scopes.size = some first.scope := by
    rw [Scopes.parent?_eq, hplace]
    rfl
  refine sealed_of_unseen (Nat.lt_of_lt_of_le hthere hspares.size_le) fun frame hframe hsees => ?_
  have hlate : ∀ frame ∈ first :: rest, j ∉ (nextRound names env).scopes.outwards frame.scope :=
    fun frame hframe hsees => by
      have hle := Scopes.le_of_mem_outwards hsees
      have := hbelow frame hframe
      omega
  rw [hframes] at hframe
  rcases List.mem_cons.mp hframe with rfl | hframe
  · rw [Scopes.outwards_some hparent (hnext.rooted.parent?_lt hparent)] at hsees
    rcases List.mem_cons.mp hsees with rfl | hsees
    · exact Nat.lt_irrefl _ hthere
    · exact hlate first List.mem_cons_self hsees
  · exact hlate frame (List.mem_cons_of_mem _ hframe) hsees

end StepTrace.Environment
