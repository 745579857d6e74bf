import StepTrace.Value.Equality

/-!
# Doubles that compare as equal

Two doubles compare as equal if they are the same infinity, zeros of any signs, or the same other
number (`SameNumber`). So the comparison is symmetric and transitive, and of all doubles only
not-a-number differs from itself.
-/

namespace StepTrace.Number

open Float.Model (UnpackedFloat)
open Float.Model.UnpackedFloat (Sign)

/-- The doubles stand for the same number, zeros of different signs included. -/
inductive SameNumber : UnpackedFloat → UnpackedFloat → Prop
  | infinity (sign : Sign) : SameNumber (.infinity sign) (.infinity sign)
  | zero (sign sign' : Sign) : SameNumber (.zero sign) (.zero sign')
  | finite (sign : Sign) (mantissa : Nat) (exponent : Int) (hpos : 0 < mantissa) :
    SameNumber (.finite sign mantissa exponent hpos) (.finite sign mantissa exponent hpos)

namespace SameNumber

variable {a b c : UnpackedFloat}

theorem symm (h : SameNumber a b) : SameNumber b a := by
  cases h with
  | infinity sign => exact .infinity sign
  | zero sign sign' => exact .zero sign' sign
  | finite sign mantissa exponent hpos => exact .finite sign mantissa exponent hpos

theorem trans (h : SameNumber a b) (h' : SameNumber b c) : SameNumber a c := by
  cases h with
  | infinity sign => exact h'
  | finite sign mantissa exponent hpos => exact h'
  | zero sign sign' =>
      cases h' with
      | zero _ sign'' => exact .zero sign sign''

theorem refl_iff : SameNumber a a ↔ a ≠ .notANumber := by
  constructor
  · rintro h rfl
    cases h
  · intro h
    cases a with
    | notANumber => exact absurd rfl h
    | infinity sign => exact .infinity sign
    | zero sign => exact .zero sign sign
    | finite sign mantissa exponent hpos => exact .finite sign mantissa exponent hpos

end SameNumber

/-! ## The comparison -/

section

variable {m m' : Nat} {e e' : Int}

theorem then_compare_eq_iff : (compare e e').then (compare m m') = .eq ↔ e = e' ∧ m = m' := by
  rw [Ordering.then_eq_eq, Std.compare_eq_iff_eq, Std.compare_eq_iff_eq]

theorem sameNumber_of_then {sign : Sign} (hpos : 0 < m) (hpos' : 0 < m')
    (h : (compare e e').then (compare m m') = .eq) :
    SameNumber (.finite sign m e hpos) (.finite sign m' e' hpos') := by
  obtain ⟨rfl, rfl⟩ := then_compare_eq_iff.mp h
  exact .finite sign m e hpos

end

/-- The comparison of a number with one of another kind never answers that they are equal. -/
theorem sameNumber_of_compare {a b : UnpackedFloat} (h : a.compare b = some .eq) :
    SameNumber a b := by
  cases a with
  | notANumber => cases h
  | infinity sign =>
      cases b with
      | infinity sign' =>
          cases sign with
          | negative =>
              cases sign' with
              | negative => exact .infinity .negative
              | positive => cases h
          | positive =>
              cases sign' with
              | negative => cases h
              | positive => exact .infinity .positive
      | _ => cases sign <;> cases h
  | zero sign =>
      cases b with
      | zero sign' => exact .zero sign sign'
      | notANumber => cases h
      | infinity sign' | finite sign' => cases sign' <;> cases h
  | finite sign m e hpos =>
      cases b with
      | notANumber | zero => cases sign <;> cases h
      | infinity sign' => cases sign <;> cases sign' <;> cases h
      | finite sign' m' e' hpos' =>
          cases sign with
          | negative =>
              cases sign' with
              | negative =>
                  have hswap := Option.some.inj h
                  rw [Ordering.swap_eq_eq] at hswap
                  exact sameNumber_of_then hpos hpos' hswap
              | positive => cases h
          | positive =>
              cases sign' with
              | negative => cases h
              | positive => exact sameNumber_of_then hpos hpos' (Option.some.inj h)

theorem compare_of_sameNumber {a b : UnpackedFloat} (h : SameNumber a b) :
    a.compare b = some .eq := by
  cases h with
  | infinity sign => cases sign <;> rfl
  | zero sign sign' => rfl
  | finite sign m e hpos =>
      have hsame : (compare e e).then (compare m m) = .eq := then_compare_eq_iff.mpr ⟨rfl, rfl⟩
      cases sign with
      | negative => exact congrArg (fun order : Ordering => some order.swap) hsame
      | positive => exact congrArg some hsame

theorem beq_iff_sameNumber {x y : Float} :
    (x == y) = true ↔ SameNumber x.toModel.unpack y.toModel.unpack := by
  have hcompare : (x == y) = true ↔
      x.toModel.unpack.compare y.toModel.unpack = some .eq :=
    beq_iff_eq (a := x.toModel.unpack.compare y.toModel.unpack)
  rw [hcompare]
  exact ⟨sameNumber_of_compare, compare_of_sameNumber⟩

theorem beq_comm (x y : Float) : (x == y) = (y == x) := by
  rw [Bool.eq_iff_iff, beq_iff_sameNumber, beq_iff_sameNumber]
  exact ⟨SameNumber.symm, SameNumber.symm⟩

theorem beq_trans {x y z : Float} (h : (x == y) = true) (h' : (y == z) = true) :
    (x == z) = true :=
  beq_iff_sameNumber.mpr ((beq_iff_sameNumber.mp h).trans (beq_iff_sameNumber.mp h'))

theorem isNaN_eq_true_iff (x : Float) : x.isNaN = true ↔ x.toModel.unpack = .notANumber := by
  change x.toModel.unpack.isNaN = true ↔ _
  cases x.toModel.unpack with
  | notANumber => exact ⟨fun _ => rfl, fun _ => rfl⟩
  | _ =>
      constructor
      · intro h
        cases h
      · intro h
        cases h

/-- A double equals itself unless it is not-a-number. -/
theorem beq_self_iff (x : Float) : (x == x) = true ↔ x.isNaN = false := by
  rw [beq_iff_sameNumber, SameNumber.refl_iff, ← Bool.not_eq_true, isNaN_eq_true_iff]

end StepTrace.Number
