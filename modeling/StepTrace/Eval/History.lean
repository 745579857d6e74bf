import StepTrace.Scope.Environment
import StepTrace.Trace.Step
import StepTrace.Value.Heap

/-!
# What has happened

Statements about a run speak of what happened in it and of the states it went through. A
run keeps this on record as a `Ghost`, which no computation can look into and of which
nothing is left in a running program.

* `Ghost.get`: the value of a ghost.
* `Moment`: something that happened, with the environment and the heap behind it.
-/

namespace StepTrace

/-- A value for statements only. It is given by the property of being that value, so there
is nothing to compute or to keep. -/
structure Ghost (α : Type) where
  holds : α → Prop
  unique : ∃ a, holds = (a = ·)

namespace Ghost

variable {α β : Type}

/-- The ghost of a value. -/
@[inline] def of (a : α) : Ghost α :=
  ⟨(a = ·), a, rfl⟩

/-- The ghost of the image of a value. -/
@[inline] def map (f : α → β) (ghost : Ghost α) : Ghost β where
  holds b := ∃ a, ghost.holds a ∧ f a = b
  unique := by
    obtain ⟨a, h⟩ := ghost.unique
    exact ⟨f a, by simp [h]⟩

/-- The value of a ghost. -/
noncomputable def get (ghost : Ghost α) : α :=
  ghost.unique.choose

theorem holds_eq (ghost : Ghost α) : ghost.holds = (ghost.get = ·) :=
  ghost.unique.choose_spec

@[simp]
theorem get_of (a : α) : (of a).get = a := by
  have h : (of a).holds ((of a).get) := by simp [holds_eq]
  exact h.symm

@[simp]
theorem get_map (f : α → β) (ghost : Ghost α) : (ghost.map f).get = f ghost.get := by
  have h : (ghost.map f).holds (f ghost.get) := ⟨ghost.get, by simp [holds_eq], rfl⟩
  simpa [holds_eq] using h

end Ghost

/-- Something that happens in a run. -/
inductive Event where
  /-- A frame, a scope or a container was made, left or changed. -/
  | changed
  /-- A simple statement that starts on the line has come to its end; a capture stands
  directly behind it or does not. -/
  | completed (line : Nat) (captured : Bool)
  /-- The consumer has taken a step. -/
  | taken (step : Step)
  /-- A function that the program defines is called; it has no frame yet. -/
  | called
  /-- A return statement has been carried out with the value. -/
  | returned (value : Value)
  /-- An array was made, or its elements were replaced, without a limit on its length. -/
  | unchecked (array : Nat)
  /-- A value was made that may be a string, without a limit on its length. -/
  | untested (value : Value)

/-- An event with the environment and the heap behind it. -/
structure Moment where
  event : Event
  env : Environment
  heap : Heap

/-- The moments of a run up to now, in order. -/
abbrev History := Ghost (List Moment)

end StepTrace
