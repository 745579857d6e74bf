/-!
# Step cursors

A cursor is a position in a sequence of steps. It never leaves the sequence; in an empty
one it stays at the beginning.

* `Cursor.position_forward`, `Cursor.position_backward`.
* `Cursor.advance`: several steps at once, as far as there are any.
-/

namespace StepTrace.Viewer

/-- A position in a sequence of `length` steps. -/
structure Cursor where
  position : Nat
  length : Nat
  position_le : position ≤ length - 1 := by omega
deriving DecidableEq, Repr

namespace Cursor

/-- The first position. -/
def start (length : Nat) : Cursor :=
  ⟨0, length, by omega⟩

/-- The last position. -/
def last (length : Nat) : Cursor :=
  ⟨length - 1, length, by omega⟩

/-- Whether there is no further step. -/
def isAtEnd (cursor : Cursor) : Bool :=
  cursor.position + 1 ≥ cursor.length

/-- One step ahead, if there is one. -/
def forward? (cursor : Cursor) : Option Cursor :=
  if h : cursor.position + 1 ≥ cursor.length then none
  else some ⟨cursor.position + 1, cursor.length, by omega⟩

/-- One step back, if there is one. -/
def backward? (cursor : Cursor) : Option Cursor :=
  if cursor.position = 0 then none
  else some ⟨cursor.position - 1, cursor.length, by have := cursor.position_le; omega⟩

/-- The cursor in front of the first step. -/
def toStart (cursor : Cursor) : Cursor :=
  start cursor.length

/-- The cursor at the last step. -/
def toEnd (cursor : Cursor) : Cursor :=
  last cursor.length

/-- Up to `n` steps ahead: how many there were, and the cursor behind them. -/
def advance (cursor : Cursor) : Nat → Nat × Cursor
  | 0 => (0, cursor)
  | n + 1 =>
    match cursor.forward? with
    | none => (0, cursor)
    | some next =>
      let (steps, cursor) := next.advance n
      (steps + 1, cursor)

theorem position_forward {cursor next : Cursor} (h : cursor.forward? = some next) :
    next.position = cursor.position + 1 ∧ next.length = cursor.length := by
  unfold forward? at h
  split at h
  · simp at h
  · injection h with h
    subst h
    exact ⟨rfl, rfl⟩

theorem position_backward {cursor next : Cursor} (h : cursor.backward? = some next) :
    next.position + 1 = cursor.position ∧ next.length = cursor.length := by
  unfold backward? at h
  split at h
  · simp at h
  · injection h with h
    subst h
    exact ⟨by simp only; omega, rfl⟩

end Cursor

end StepTrace.Viewer
