import StepTrace.Eval.Run

/-!
# Laws of computations

A computation applied to a state is a process, and what follows it is attached to the ends
of that process (`Eval.bind_apply`). So computations satisfy the laws of a monad, and a
computation inside others is reached by `andThen` alone.
-/

namespace StepTrace

variable {α β γ : Type}

namespace Process

@[simp]
theorem andThen_done (p : Process α) : p.andThen (fun a s => done a s) = p := by
  induction p with
  | done a s => rfl
  | stopped stop s => rfl
  | offering step answer ih => simp only [andThen, ih]

theorem andThen_assoc (p : Process α) (f : α → State → Process β) (g : β → State → Process γ) :
    (p.andThen f).andThen g = p.andThen fun a s => (f a s).andThen g := by
  induction p with
  | done a s => rfl
  | stopped stop s => rfl
  | offering step answer ih => simp only [andThen, ih]

theorem leaving_andThen_done (p : Process α) (g : α → β)
    (leave : Environment → Environment) :
    (p.andThen fun a s => .done (g a) s).leaving leave =
      (p.leaving leave).andThen fun a s => .done (g a) s := by
  induction p with
  | done a s => rfl
  | stopped stop s => rfl
  | offering step answer ih => simp only [andThen, leaving, ih]

theorem attach_eq (p : Process α) (f : α → State → Process β) : p.attach f = p.andThen f := by
  cases p with
  | done a s => rfl
  | stopped stop s => rfl
  | offering step answer => rfl

end Process

namespace Eval

@[simp]
theorem pure_apply (a : α) (s : State) : (pure a : Eval α) s = .done a s := rfl

@[simp]
theorem bind_apply (m : Eval α) (f : α → Eval β) (s : State) :
    (m >>= f) s = (m s).andThen f := by
  change (m s).attach f = (m s).andThen f
  exact (m s).attach_eq f

@[simp]
theorem map_apply (g : α → β) (m : Eval α) (s : State) :
    (g <$> m) s = (m s).andThen fun a s => .done (g a) s :=
  bind_apply m (fun a => pure (g a)) s

theorem bind_of_done {m : Eval α} {f : α → Eval β} {a : α} {s s' : State}
    (h : m s = .done a s') : (m >>= f) s = f a s' := by
  rw [bind_apply, h]
  rfl

theorem exists_of_bind_done {m : Eval α} {f : α → Eval β} {b : β} {s s' : State}
    (h : (m >>= f) s = .done b s') :
    ∃ a middle, m s = .done a middle ∧ f a middle = .done b s' := by
  rw [bind_apply] at h
  cases hm : m s with
  | done a middle =>
      rw [hm] at h
      exact ⟨a, middle, rfl, h⟩
  | stopped stop middle =>
      rw [hm] at h
      cases h
  | offering step answer =>
      rw [hm] at h
      cases h

theorem leaving_map (leave : Environment → Environment) (m : Eval α) (g : α → β) :
    leaving leave (m >>= fun a => pure (g a)) =
      leaving leave m >>= fun a => pure (g a) := by
  funext s
  change ((m >>= fun a => pure (g a)) s).leaving leave = _
  rw [bind_apply, bind_apply]
  exact Process.leaving_andThen_done (m s) g leave

theorem lookup_eq_done {name : String} {loc : Syntax.Location} {a : Value} {s s' : State} :
    lookup loc name s = .done a s' ↔ s' = s ∧ s.env.lookup? name = some a := by
  have hask : lookup? name s = .done (s.env.lookup? name) s := rfl
  unfold lookup
  rw [bind_of_done hask]
  cases s.env.lookup? name with
  | none =>
      refine ⟨fun h => ?_, fun h => ?_⟩
      · cases h
      · cases h.2
  | some b =>
      refine ⟨fun h => ?_, ?_⟩
      · cases h
        exact ⟨rfl, rfl⟩
      · rintro ⟨rfl, h⟩
        cases h
        rfl

theorem consultAt_eq_done {question : Heap → Except Cause α} {loc : Syntax.Location} {a : α}
    {s s' : State} :
    consultAt loc question s = .done a s' ↔ s' = s ∧ question s.heap = .ok a := by
  have hask : consult question s = .done (question s.heap) s := rfl
  unfold consultAt
  rw [bind_of_done hask]
  cases question s.heap with
  | error cause =>
      refine ⟨fun h => ?_, fun h => ?_⟩
      · cases h
      · cases h.2
  | ok b =>
      refine ⟨fun h => ?_, ?_⟩
      · cases h
        exact ⟨rfl, rfl⟩
      · rintro ⟨rfl, h⟩
        cases h
        rfl

theorem assign_apply (loc : Syntax.Location) (name : String) (value : Value) (s : State) :
    assign loc name value s = match s.env.assignee name with
      | .ok scope => .done () (s.changeEnv (·.store scope name value))
      | .error .constant => .stopped (.fault ⟨.constant name, loc⟩) s
      | .error .undeclared => .stopped (.fault ⟨.unbound name, loc⟩) s := by
  unfold assign
  rw [bind_apply]
  change (match s.env.assignee name with
    | .ok scope => changeEnv (·.store scope name value)
    | .error .constant => raise loc (.constant name)
    | .error .undeclared => raise loc (.unbound name)) s = _
  rcases s.env.assignee name with (_ | _) | scope <;> rfl

theorem capture_apply (names : List String) (line : Nat) (s : State) :
    capture names line s = hand (Step.observe names line s.env s.heap) s := rfl

end Eval

instance : LawfulMonad Eval :=
  LawfulMonad.mk' Eval
    (fun {_} m => by
      funext s
      rw [Eval.map_apply]
      exact Process.andThen_done (m s))
    (fun {_ _} a f => by
      funext s
      rw [Eval.bind_apply]
      rfl)
    (fun {_ _ _} m f g => by
      funext s
      rw [Eval.bind_apply, Eval.bind_apply, Eval.bind_apply]
      refine (Process.andThen_assoc _ _ _).trans (congrArg (m s).andThen ?_)
      funext a s
      exact (Eval.bind_apply (f a) g s).symm)

end StepTrace
