import StepTrace.Eval.Run
import StepTrace.Proofs.Computation

/-!
# The ends of a process

A process ends in one of several states, depending on how its consumer answers the steps that
it offers. `Process.Ends` says what all these states have in common; `Process.MayEnd` and
`Process.MayStop` are the single ones. The rules here lead from the parts of a computation to the
whole; what the parts are is left to the modules that use them.
-/

namespace StepTrace.Process

variable {α β : Type} {finish finish' : α → State → Prop} {halt halt' : Stop → State → Prop}

/-- Whatever the consumer answers, `finish` holds if the process comes to its end and `halt` if
it is stopped before. -/
def Ends (finish : α → State → Prop) (halt : Stop → State → Prop) : Process α → Prop
  | done a s => finish a s
  | stopped stop s => halt stop s
  | offering _ answer => ∀ taken, (answer taken).Ends finish halt

/-- The process comes to its end with the value in the state, for some answers of a consumer. -/
inductive MayEnd : Process α → α → State → Prop
  | done (a : α) (s : State) : MayEnd (.done a s) a s
  | offering {step : Step} {answer : Bool → Process α} {a : α} {s : State} (taken : Bool)
    (h : MayEnd (answer taken) a s) : MayEnd (.offering step answer) a s

/-- The process is stopped in the state, for some answers of a consumer. -/
inductive MayStop : Process α → Stop → State → Prop
  | stopped (stop : Stop) (s : State) : MayStop (.stopped stop s) stop s
  | offering {step : Step} {answer : Bool → Process α} {stop : Stop} {s : State} (taken : Bool)
    (h : MayStop (answer taken) stop s) : MayStop (.offering step answer) stop s

namespace Ends

variable {p : Process α}

theorem mono (h : p.Ends finish' halt') (hfinish : ∀ a s, finish' a s → finish a s)
    (hhalt : ∀ stop s, halt' stop s → halt stop s) : p.Ends finish halt := by
  induction p with
  | done a s => exact hfinish a s h
  | stopped stop s => exact hhalt stop s h
  | offering step answer ih => exact fun taken => ih taken (h taken)

theorem andThen {next : α → State → Process β} {finish : β → State → Prop}
    (h : p.Ends finish' halt) (hnext : ∀ a s, finish' a s → (next a s).Ends finish halt) :
    (p.andThen next).Ends finish halt := by
  induction p with
  | done a s => exact hnext a s h
  | stopped stop s => exact h
  | offering step answer ih => exact fun taken => ih taken (h taken)

theorem leaving {leave : Environment → Environment}
    (h : p.Ends (fun a s => finish a (s.changeEnv leave))
      fun stop s => halt stop (s.changeEnv leave)) :
    (p.leaving leave).Ends finish halt := by
  induction p with
  | done a s => exact h
  | stopped stop s => exact h
  | offering step answer ih => exact fun taken => ih taken (h taken)

theorem bind {m : Eval α} {f : α → Eval β} {finish : β → State → Prop} {s : State}
    (h : (m s).Ends finish' halt) (hf : ∀ a s, finish' a s → (f a s).Ends finish halt) :
    ((m >>= f) s).Ends finish halt := by
  rw [Eval.bind_apply]
  exact h.andThen hf

/-- A run ends as the process does. -/
theorem run {p : Process Unit} {finish : Unit → State → Prop} (h : p.Ends finish halt)
    (allowance : Option Nat) (trace : Trace) :
    match (p.run allowance trace).outcome with
    | .completed => finish () (p.run allowance trace).final
    | .stopped stop => halt stop (p.run allowance trace).final := by
  induction p generalizing allowance trace with
  | done a s => exact h
  | stopped stop s => exact h
  | offering step answer ih =>
      rcases allowance with _ | _ | n
      · exact ih true (h true) none _
      · exact ih false (h false) (some 0) _
      · exact ih true (h true) (some n) _

theorem and (h : p.Ends finish halt) (h' : p.Ends finish' halt') :
    p.Ends (fun a s => finish a s ∧ finish' a s) fun stop s => halt stop s ∧ halt' stop s := by
  induction p with
  | done a s => exact ⟨h, h'⟩
  | stopped stop s => exact ⟨h, h'⟩
  | offering step answer ih => exact fun taken => ih taken (h taken) (h' taken)

theorem of_mayEnd {a : α} {s : State} (h : p.Ends finish halt) (hend : p.MayEnd a s) :
    finish a s := by
  induction hend with
  | done => exact h
  | offering taken _ ih => exact ih (h taken)

end Ends

theorem ends_may (p : Process α) : p.Ends p.MayEnd p.MayStop := by
  induction p with
  | done a s => exact .done a s
  | stopped stop s => exact .stopped stop s
  | offering step answer ih =>
      intro taken
      exact (ih taken).mono (fun _ _ => .offering taken) fun _ _ => .offering taken

section MayEnd

variable {p : Process α} {a : α} {b : β} {s s' : State}

theorem mayEnd_done {value : α} : (done value s).MayEnd a s' ↔ a = value ∧ s' = s := by
  constructor
  · rintro ⟨⟩
    exact ⟨rfl, rfl⟩
  · rintro ⟨rfl, rfl⟩
    exact .done _ _

theorem mayEnd_andThen {next : α → State → Process β} : (p.andThen next).MayEnd b s' ↔
    ∃ a s, p.MayEnd a s ∧ (next a s).MayEnd b s' := by
  induction p with
  | done value s =>
      constructor
      · exact fun h => ⟨value, s, .done value s, h⟩
      · rintro ⟨a, s, hdone, h⟩
        obtain ⟨rfl, rfl⟩ := mayEnd_done.mp hdone
        exact h
  | stopped stop s =>
      constructor
      · rintro ⟨⟩
      · rintro ⟨a, s, ⟨⟩, h⟩
  | offering step answer ih =>
      constructor
      · intro h
        obtain ⟨taken, h⟩ : ∃ taken, ((answer taken).andThen next).MayEnd b s' := by
          cases h with
          | offering taken h => exact ⟨taken, h⟩
        obtain ⟨a, s, hfirst, h⟩ := (ih taken).mp h
        exact ⟨a, s, .offering taken hfirst, h⟩
      · rintro ⟨a, s, hfirst, h⟩
        cases hfirst with
        | offering taken hfirst => exact .offering taken ((ih taken).mpr ⟨a, s, hfirst, h⟩)

theorem mayEnd_bind {m : Eval α} {f : α → Eval β} : ((m >>= f) s).MayEnd b s' ↔
    ∃ a middle, (m s).MayEnd a middle ∧ (f a middle).MayEnd b s' := by
  rw [Eval.bind_apply]
  exact mayEnd_andThen

theorem mayEnd_leaving {leave : Environment → Environment} : (p.leaving leave).MayEnd a s' ↔
    ∃ s, p.MayEnd a s ∧ s' = s.changeEnv leave := by
  induction p with
  | done value s =>
      constructor
      · intro h
        obtain ⟨rfl, rfl⟩ := mayEnd_done.mp h
        exact ⟨s, .done _ _, rfl⟩
      · rintro ⟨s, hdone, rfl⟩
        obtain ⟨rfl, rfl⟩ := mayEnd_done.mp hdone
        exact .done _ _
  | stopped stop s =>
      constructor
      · rintro ⟨⟩
      · rintro ⟨s, ⟨⟩, h⟩
  | offering step answer ih =>
      constructor
      · intro h
        cases h with
        | offering taken h =>
            obtain ⟨s, hend, rfl⟩ := (ih taken).mp h
            exact ⟨s, .offering taken hend, rfl⟩
      · rintro ⟨s, hend, rfl⟩
        cases hend with
        | offering taken hend => exact .offering taken ((ih taken).mpr ⟨s, hend, rfl⟩)

end MayEnd

end StepTrace.Process
