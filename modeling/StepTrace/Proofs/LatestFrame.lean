import StepTrace.Eval.Program

/-!
# The latest frame

Code looks at the frame of its own call and at no other one, which is what makes scoping
lexical. So what it asks of an environment does not depend on the frames below the latest
(`SeesLatest`), and what it does to an environment leaves them as they are (`ChangesLatest`).
-/

namespace StepTrace.Environment

variable {change next : Environment → Environment}

/-- Where a call is under way, the answer depends on no frame but the latest. -/
def SeesLatest {α : Type} (question : Environment → Heap → α) : Prop :=
  ∀ scopes frame below below' heap,
    question ⟨scopes, frame :: below⟩ heap = question ⟨scopes, frame :: below'⟩ heap

theorem seesLatest_heap {α : Type} (question : Heap → α) :
    SeesLatest fun _ heap => question heap :=
  fun _ _ _ _ _ => rfl

theorem seesLatest_lookup? (name : String) : SeesLatest fun env _ => env.lookup? name :=
  fun _ _ _ _ _ => rfl

/-- Where a call is under way, the change depends on no frame but the latest and leaves the
frames below it as they are. -/
def ChangesLatest (change : Environment → Environment) : Prop :=
  ∀ scopes frame, ∃ scopes' frame', ∀ below,
    change ⟨scopes, frame :: below⟩ = ⟨scopes', frame' :: below⟩

namespace ChangesLatest

theorem comp (hnext : ChangesLatest next) (hchange : ChangesLatest change) :
    ChangesLatest fun env => next (change env) := by
  intro scopes frame
  obtain ⟨scopes', frame', hchanged⟩ := hchange scopes frame
  obtain ⟨scopes'', frame'', hfollows⟩ := hnext scopes' frame'
  exact ⟨scopes'', frame'', fun below => (congrArg next (hchanged below)).trans (hfollows below)⟩

theorem declare (name : String) (value : Value) (isConst : Bool) :
    ChangesLatest (·.declare name value isConst) :=
  fun scopes frame => ⟨scopes.declare frame.scope name value isConst, frame, fun _ => rfl⟩

theorem declareVar (name : String) (value : Value) : ChangesLatest (·.declareVar name value) :=
  fun scopes frame => ⟨scopes.declare (scopes.functionScope frame.scope) name value false, frame,
    fun _ => rfl⟩

/-- One change after the other, for the members of a list. -/
theorem foldl {α : Type} {change : Environment → α → Environment}
    (h : ∀ x, ChangesLatest (change · x)) (xs : List α) :
    ChangesLatest fun env => xs.foldl change env := by
  induction xs with
  | nil => exact fun scopes frame => ⟨scopes, frame, fun _ => rfl⟩
  | cons x rest ih => exact ih.comp (h x)

theorem enterBlock : ChangesLatest Environment.enterBlock :=
  fun scopes frame => ⟨scopes.push (.blank (some frame.scope) false),
    { frame with scope := scopes.size }, fun _ => rfl⟩

theorem leaveBlock : ChangesLatest Environment.leaveBlock := by
  intro scopes frame
  unfold Environment.leaveBlock
  cases hparent : scopes.parent? frame.scope with
  | none =>
      refine ⟨scopes, frame, fun below => ?_⟩
      simp [current, hparent]
  | some i =>
      refine ⟨scopes, { frame with scope := i }, fun below => ?_⟩
      simp [current, hparent, moveTo]

theorem nextRound (names : List String) : ChangesLatest (StepTrace.nextRound names) := by
  intro scopes frame
  -- the values are looked up in the environment that the round begins with
  have hdeclared : ChangesLatest fun env =>
      (names.map fun name => (name, (scopes.lookup? name frame.scope).getD .undefined)).foldl
        (fun env (entry : String × Value) => env.declare entry.1 entry.2 false) env :=
    foldl (fun entry : String × Value => declare entry.1 entry.2 false) _
  exact (hdeclared.comp (enterBlock.comp leaveBlock)) scopes frame

end ChangesLatest

end StepTrace.Environment
