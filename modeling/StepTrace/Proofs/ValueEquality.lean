import StepTrace.Proofs.ComparedDoubles
import StepTrace.Proofs.TextConversion

/-!
# Equality of values

Two values are strictly equal if they are numbers that compare as equal, or the same value of
another kind (`StrictlyEqual`). Loose equality converts its operands first, and the conversion of
a container to its text follows references. `Comparing` is this procedure as the run of a program
that nothing bounds: a comparison that does not end has no derivation.

* `Value.comparing_iff`: every comparison ends in one way, in every heap, cyclic or not, and
  `Value.looseEq` is its answer.
* `Value.coherentEquality`: the laws of the two equalities.
-/

namespace StepTrace.Value

variable {heap : Heap} {a b c : Value}

/-! ## Strict equality -/

/-- The value is not-a-number. -/
def IsNaN : Value → Prop
  | .number x => x.isNaN = true
  | _ => False

/-- The value is a number. -/
def IsNumber : Value → Prop
  | .number _ => True
  | _ => False

/-- The values are numbers that compare as equal, or the same value of another kind. -/
inductive StrictlyEqual : Value → Value → Prop
  | numbers {x y : Float} (h : (x == y) = true) : StrictlyEqual (.number x) (.number y)
  | same {a : Value} (h : ¬ a.IsNumber) : StrictlyEqual a a

namespace StrictlyEqual

theorem symm (h : StrictlyEqual a b) : StrictlyEqual b a := by
  cases h with
  | numbers h => exact .numbers (by rwa [Number.beq_comm])
  | same h => exact .same h

theorem trans (h : StrictlyEqual a b) (h' : StrictlyEqual b c) : StrictlyEqual a c := by
  cases h with
  | numbers h =>
      cases h' with
      | numbers h' => exact .numbers (Number.beq_trans h h')
      | same h' => exact absurd trivial h'
  | same h => exact h'

theorem refl_iff : StrictlyEqual a a ↔ ¬ a.IsNaN := by
  by_cases hnumber : a.IsNumber
  · cases a with
    | number x =>
        have hself : StrictlyEqual (.number x) (.number x) ↔ (x == x) = true := by
          constructor
          · intro h
            cases h with
            | numbers h => exact h
            | same h => exact absurd hnumber h
          · exact .numbers
        rw [hself, Number.beq_self_iff, ← Bool.not_eq_true]
        rfl
    | _ => exact hnumber.elim
  · have hnan : ¬ a.IsNaN := by
      intro h
      cases a with
      | number x => exact hnumber trivial
      | _ => exact h
    exact iff_of_true (.same hnumber) hnan

end StrictlyEqual

theorem strictEq_iff : a.strictEq b = true ↔ StrictlyEqual a b := by
  constructor
  · intro h
    cases a <;> cases b <;> first
      | exact .same id
      | exact .numbers h
      | exact eq_of_beq h ▸ .same id
      | cases h
  · intro h
    cases h with
    | numbers h => exact h
    | same h =>
        cases a with
        | number x => exact absurd trivial h
        | undefined | null => rfl
        | _ => exact beq_self_eq_true _

theorem strictEq_comm (a b : Value) : a.strictEq b = b.strictEq a := by
  rw [Bool.eq_iff_iff, strictEq_iff, strictEq_iff]
  exact ⟨StrictlyEqual.symm, StrictlyEqual.symm⟩

/-! ## Loose equality -/

theorem looseEqPlain_of_strictEq (h : a.strictEq b = true) : looseEqPlain heap a b = true := by
  cases strictEq_iff.mp h with
  | numbers h => exact h
  | same hnumber =>
      cases a with
      | number x => exact absurd trivial hnumber
      | _ => exact h

/-- An operand that is converted is so on either side. -/
theorem looseEqPlain_comm (a b : Value) : looseEqPlain heap a b = looseEqPlain heap b a := by
  have hstrict := strictEq_comm a b
  cases a <;> cases b <;> first
    | exact hstrict
    | exact Number.beq_comm _ _
    | rfl

/-- The operand is converted to its text when it is compared with the other one. -/
def ConvertedFor : Value → Value → Prop
  | .array _, .number _ | .array _, .string _ | .object _, .number _ | .object _, .string _ => True
  | _, _ => False

/-- The text of a container, which is what is compared. -/
def spelled (heap : Heap) (a : Value) : Value :=
  .string (a.text heap)

theorem isNullish_iff : a.isNullish = true ↔ a = .undefined ∨ a = .null := by
  cases a <;> simp [isNullish]

theorem looseEq_of_isNullish (h : (a.isNullish || b.isNullish) = true) :
    looseEq heap a b = (a.isNullish && b.isNullish) :=
  if_pos h

theorem looseEq_of_convertedFor (h : ConvertedFor a b) :
    looseEq heap a b = looseEqPlain heap (spelled heap a) b := by
  cases a with
  | array | object =>
      cases b with
      | number | string => rfl
      | _ => exact h.elim
  | _ => exact h.elim

theorem looseEq_of_convertedFor_right (h : ConvertedFor b a) :
    looseEq heap a b = looseEqPlain heap (spelled heap b) a := by
  cases b with
  | array | object =>
      cases a with
      | number | string => rfl
      | _ => exact h.elim
  | _ => exact h.elim

theorem looseEq_plain (hempty : (a.isNullish || b.isNullish) = false) (h : ¬ ConvertedFor a b)
    (h' : ¬ ConvertedFor b a) : looseEq heap a b = looseEqPlain heap a b := by
  cases a <;> cases b <;> first
    | rfl
    | exact absurd trivial h
    | exact absurd trivial h'
    | cases hempty

theorem looseEq_comm (a b : Value) : looseEq heap a b = looseEq heap b a := by
  by_cases hempty : (a.isNullish || b.isNullish) = true
  · have hempty' : (b.isNullish || a.isNullish) = true := by rwa [Bool.or_comm]
    rw [looseEq_of_isNullish hempty, looseEq_of_isNullish hempty', Bool.and_comm]
  · by_cases h : ConvertedFor a b
    · rw [looseEq_of_convertedFor h, looseEq_of_convertedFor_right h]
    · by_cases h' : ConvertedFor b a
      · rw [looseEq_of_convertedFor h', looseEq_of_convertedFor_right h']
      · rw [Bool.not_eq_true] at hempty
        have hempty' : (b.isNullish || a.isNullish) = false := by rwa [Bool.or_comm]
        rw [looseEq_plain hempty h h', looseEq_plain hempty' h' h, looseEqPlain_comm]

theorem not_convertedFor_of_strictEq (h : StrictlyEqual a b) : ¬ ConvertedFor a b := by
  cases h with
  | numbers => exact id
  | same => cases a <;> exact id

theorem looseEq_of_strictEq (h : a.strictEq b = true) : looseEq heap a b = true := by
  have hequal := strictEq_iff.mp h
  by_cases hempty : (a.isNullish || b.isNullish) = true
  · rw [looseEq_of_isNullish hempty]
    cases hequal with
    | numbers => cases hempty
    | same => rwa [Bool.and_self, ← Bool.or_self a.isNullish]
  · rw [Bool.not_eq_true] at hempty
    rw [looseEq_plain hempty (not_convertedFor_of_strictEq hequal)
      (not_convertedFor_of_strictEq hequal.symm)]
    exact looseEqPlain_of_strictEq h

/-- An empty value is loosely equal to the empty values and to nothing else. -/
theorem looseEq_empty (h : a.isNullish = true) : looseEq heap a b = b.isNullish := by
  rw [looseEq_of_isNullish (by rw [h, Bool.true_or]), h, Bool.true_and]

/-! ## Comparisons end -/

/-- The comparison by loose equality ends with the answer. The text of a container is made by the
recursion through its elements, and nothing bounds the depth. -/
inductive Comparing (heap : Heap) : Value → Value → Bool → Prop
  /-- One operand is empty. -/
  | empty {a b : Value} (hempty : (a.isNullish || b.isNullish) = true) :
      Comparing heap a b (a.isNullish && b.isNullish)
  /-- The first operand is a container, the other a number or a text. -/
  | left {a b : Value} {text : String} {answer : Bool} (hconverted : ConvertedFor a b)
      (htext : Spelling heap [] [a] [text]) (hrest : Comparing heap (.string text) b answer) :
      Comparing heap a b answer
  /-- The second operand is a container, the other a number or a text. -/
  | right {a b : Value} {text : String} {answer : Bool} (hconverted : ConvertedFor b a)
      (htext : Spelling heap [] [b] [text]) (hrest : Comparing heap (.string text) a answer) :
      Comparing heap a b answer
  /-- Neither is followed. -/
  | plain {a b : Value} (hempty : (a.isNullish || b.isNullish) = false) (hleft : ¬ ConvertedFor a b)
      (hright : ¬ ConvertedFor b a) : Comparing heap a b (looseEqPlain heap a b)

theorem spelling_text (h : ConvertedFor a b) {text : String} :
    Spelling heap [] [a] [text] ↔ text = a.text heap := by
  have helement : elementText heap [] a = a.text heap := by
    cases a with
    | array | object => rfl
    | _ => exact h.elim
  rw [spelling_iff, List.map_singleton, helement, List.singleton_inj]

/-- A text and what a container is converted for are compared as they are. -/
theorem comparing_spelled (h : ConvertedFor a b) (text : String) :
    Comparing heap (.string text) b (looseEqPlain heap (.string text) b) := by
  cases b with
  | number | string => exact .plain rfl id id
  | _ => cases a <;> exact h.elim

theorem looseEq_spelled (h : ConvertedFor a b) (text : String) :
    looseEq heap (.string text) b = looseEqPlain heap (.string text) b := by
  cases b with
  | number | string => rfl
  | _ => cases a <;> exact h.elim

theorem comparing_iff {answer : Bool} :
    Comparing heap a b answer ↔ answer = looseEq heap a b := by
  constructor
  · intro h
    induction h with
    | empty hempty => rw [looseEq_of_isNullish hempty]
    | plain hempty hleft hright => rw [looseEq_plain hempty hleft hright]
    | left hconverted htext _ ih =>
        rw [ih, looseEq_spelled hconverted, looseEq_of_convertedFor hconverted,
          (spelling_text hconverted).mp htext, spelled]
    | right hconverted htext _ ih =>
        rw [ih, looseEq_spelled hconverted, looseEq_of_convertedFor_right hconverted,
          (spelling_text hconverted).mp htext, spelled]
  · rintro rfl
    by_cases hempty : (a.isNullish || b.isNullish) = true
    · rw [looseEq_of_isNullish hempty]
      exact .empty hempty
    · by_cases h : ConvertedFor a b
      · rw [looseEq_of_convertedFor h]
        exact .left h ((spelling_text h).mpr rfl) (comparing_spelled h _)
      · by_cases h' : ConvertedFor b a
        · rw [looseEq_of_convertedFor_right h']
          exact .right h' ((spelling_text h').mpr rfl) (comparing_spelled h' _)
        · rw [Bool.not_eq_true] at hempty
          rw [looseEq_plain hempty h h']
          exact .plain hempty h h'

/-! ## The laws -/

/-- What the two equalities satisfy over a heap. -/
structure EqualityLaws (heap : Heap) : Prop where
  strict_symm : ∀ a b : Value, a.strictEq b = b.strictEq a
  strict_trans : ∀ a b c : Value,
    a.strictEq b = true → b.strictEq c = true → a.strictEq c = true
  strict_self : ∀ a : Value, a.strictEq a = true ↔ ¬ a.IsNaN
  strict_loose : ∀ a b : Value, a.strictEq b = true → looseEq heap a b = true
  loose_symm : ∀ a b : Value, looseEq heap a b = looseEq heap b a
  null : ∀ a : Value, looseEq heap .null a = true ↔ a = .undefined ∨ a = .null
  undefined : ∀ a : Value, looseEq heap .undefined a = true ↔ a = .undefined ∨ a = .null
  /-- A comparison that nothing bounds ends. -/
  ends : ∀ a b : Value, ∃ answer, Comparing heap a b answer
  /-- It ends in one way only. -/
  answer : ∀ (a b : Value) (answer : Bool), Comparing heap a b answer → answer = looseEq heap a b

/-- Equality is coherent over every heap, whatever its containers hold. -/
theorem equalityLaws (heap : Heap) : EqualityLaws heap where
  strict_symm := strictEq_comm
  strict_trans a b c h h' :=
    strictEq_iff.mpr ((strictEq_iff.mp h).trans (strictEq_iff.mp h'))
  strict_self a := by rw [strictEq_iff, StrictlyEqual.refl_iff]
  strict_loose a b := looseEq_of_strictEq
  loose_symm := looseEq_comm
  null a := by rw [looseEq_empty rfl, isNullish_iff]
  undefined a := by rw [looseEq_empty rfl, isNullish_iff]
  ends a b := ⟨looseEq heap a b, comparing_iff.mpr rfl⟩
  answer a b answer := comparing_iff.mp

end StepTrace.Value
