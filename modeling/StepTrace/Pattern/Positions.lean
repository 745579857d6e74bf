/-!
# Sets of positions

A set of positions in a text, kept as the bits of a number.

* `contains_insert`, `contains_insertRange`: what belongs to a set once a position or a
  range of them is put in.
-/

namespace StepTrace.Pattern

/-- A set of positions. -/
structure Positions where
  bits : Nat
deriving DecidableEq

namespace Positions

/-- No position. -/
def empty : Positions :=
  ⟨0⟩

/-- Whether a position belongs to the set. -/
def contains (set : Positions) (position : Nat) : Bool :=
  set.bits.testBit position

/-- The set with a position put in. -/
def insert (set : Positions) (position : Nat) : Positions :=
  ⟨set.bits ||| 1 <<< position⟩

/-- The set with the first `count` positions from `first` on put in. -/
def insertRange (set : Positions) (first count : Nat) : Positions :=
  ⟨set.bits ||| (1 <<< count - 1) <<< first⟩

theorem contains_empty (position : Nat) : empty.contains position = false := by
  simp [empty, contains]

theorem contains_insert (set : Positions) (a b : Nat) :
    (set.insert a).contains b = (set.contains b || decide (a = b)) := by
  simp only [insert, contains, Nat.testBit_or, Nat.one_shiftLeft, Nat.testBit_two_pow]

theorem contains_insertRange (set : Positions) (first count position : Nat) :
    (set.insertRange first count).contains position =
      (set.contains position || decide (first ≤ position ∧ position < first + count)) := by
  simp only [insertRange, contains, Nat.testBit_or, Nat.one_shiftLeft, Nat.testBit_shiftLeft,
    Nat.testBit_two_pow_sub_one]
  congr 1
  by_cases h : first ≤ position
  · have hIff : position - first < count ↔ position < first + count := by omega
    simp [h, hIff]
  · simp [h]

end Positions

end StepTrace.Pattern
