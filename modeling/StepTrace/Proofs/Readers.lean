import StepTrace.Syntax.Parser

/-!
# Readers

What is used of readers wherever the parser is followed through a text. A reader goes on where the
one before it stopped (`Reader.bind_ok`). Operators and the words of declarations are taken if
they are next, and by their kinds it is known what they do to the names, to the braces and to the
calls that are read.

* `Reader.Takes`: the reader takes one token of some kinds, or nothing.
-/

namespace StepTrace.Syntax

variable {input rest : Input}

/-- A reader goes on where the one before it stopped. -/
theorem Reader.bind_ok {α β : Type} {m : Reader α} {f : α → Reader β} {y : β}
    (h : (m >>= f) input = .ok (y, rest)) :
    ∃ x input', m input = .ok (x, input') ∧ f x input' = .ok (y, rest) := by
  change (m input >>= fun read => f read.1 read.2) = .ok (y, rest) at h
  cases hread : m input with
  | error e =>
      rw [hread] at h
      cases h
  | ok read =>
      rw [hread] at h
      exact ⟨read.1, read.2, rfl, h⟩

theorem Reader.bind_of_ok {α β : Type} {m : Reader α} {f : α → Reader β} {a : α}
    (h : m input = .ok (a, rest)) : (m >>= f) input = f a rest := by
  change (m input >>= fun read => f read.1 read.2) = _
  rw [h]
  rfl

/-! ## Operators and the words of declarations -/

/-- The reader takes one token, which is of one of the kinds, or nothing. -/
def Reader.Takes {α : Type} (kinds : List Kind) (m : Reader (Option α)) : Prop :=
  ∀ input a? rest, m input = .ok (a?, rest) → (a? = none ∧ rest = input) ∨
    ((∃ a, a? = some a) ∧ input.peek.kind ∈ kinds ∧ rest = input.advance)

/-- The operators of a level. -/
def levelKinds (level : List OperatorOf) : List Kind :=
  level.map fun op => .symbol op.1

/-- The operators of compound assignments. -/
def compoundKinds : List Kind :=
  [.symbol .plusAssign, .symbol .minusAssign, .symbol .starAssign, .symbol .slashAssign,
    .symbol .percentAssign]

/-- The operators before an operand. -/
def frontKinds : List Kind :=
  [.symbol .bang, .symbol .tilde, .symbol .minus, .symbol .plus, .keyword .typeofKw,
    .symbol .plusPlus, .symbol .minusMinus]

/-- The operators behind an operand. -/
def behindKinds : List Kind :=
  [.symbol .plusPlus, .symbol .minusMinus]

/-- The words of declarations. -/
def declKinds : List Kind :=
  [.keyword .letKw, .keyword .constKw, .keyword .varKw]

theorem mem_of_lookup {α β : Type} [BEq α] [LawfulBEq α] {xs : List (α × β)} {x : α} {y : β}
    (h : xs.lookup x = some y) : (x, y) ∈ xs := by
  induction xs with
  | nil => cases h
  | cons first rest ih =>
      rw [List.lookup_cons] at h
      split at h
      · rename_i heq
        cases h
        rw [eq_of_beq heq]
        exact List.mem_cons_self
      · exact List.mem_cons_of_mem _ (ih h)

theorem acceptOperator_takes (level : List OperatorOf) :
    (acceptOperator level).Takes (levelKinds level) := by
  intro input a? rest h
  unfold acceptOperator at h
  split at h
  · rename_i s hpeek
    split at h
    · rename_i op hop
      cases h
      rw [hpeek]
      exact Or.inr ⟨⟨op, rfl⟩, List.mem_map.mpr ⟨(s, op), mem_of_lookup hop, rfl⟩, rfl⟩
    · cases h
      exact Or.inl ⟨rfl, rfl⟩
  · cases h
    exact Or.inl ⟨rfl, rfl⟩

theorem acceptCompound_takes : acceptCompound.Takes compoundKinds := by
  intro input a? rest h
  unfold acceptCompound at h
  split at h
  all_goals
    cases h
    simp_all [compoundKinds]

theorem acceptFront_takes : acceptFront.Takes frontKinds := by
  intro input a? rest h
  unfold acceptFront at h
  split at h
  all_goals
    cases h
    simp_all [frontKinds]

theorem acceptBehind_takes : acceptBehind.Takes behindKinds := by
  intro input a? rest h
  unfold acceptBehind at h
  split at h
  · split at h
    all_goals
      cases h
      simp_all [behindKinds]
  · cases h
    exact Or.inl ⟨rfl, rfl⟩

theorem acceptDeclKind_takes : Reader.acceptDeclKind.Takes declKinds := by
  intro input a? rest h
  unfold Reader.acceptDeclKind at h
  split at h
  all_goals
    cases h
    simp_all [declKinds]

end StepTrace.Syntax
