import StepTrace.Proofs.ExactCounts
import StepTrace.Value.Limit

/-!
# Integers as doubles

The integers whose magnitude is below `2 ^ 53` are doubles, and the doubles compute with them as
with integers as long as the results are of that size too: the exact sum or product has its leading
bit at the place where the mantissa begins, so rounding finds nothing to round
(`ofNat_mul`, `ofNat_add`).

* `StandsFor`: the double is the integer.
* `StandsFor.parts`: what it is taken apart into.
-/

namespace StepTrace.Number

open Float.Model (Format UnpackedFloat)
open Float.Model.UnpackedFloat (Sign)

/-- The double stands for the integer, one that is so small that all integers of its size are
doubles. Two doubles stand for zero. -/
inductive StandsFor : Float → Int → Prop
  | ofInt {n : Int} (h : n.natAbs ≤ Limit.safeInteger) : StandsFor (Number.ofInt n) n
  | negativeZero : StandsFor (-0.0) 0

variable {x : Float} {n : Int} {a b : Nat}

/-! ## Parts -/

theorem safe_iff : a ≤ Limit.safeInteger ↔ a < 2 ^ 53 := by
  have hsafe : Limit.safeInteger = 2 ^ 53 - 1 := rfl
  omega

theorem StandsFor.natAbs_lt (h : StandsFor x n) : n.natAbs < 2 ^ 53 := by
  cases h with
  | ofInt h => exact safe_iff.mp h
  | negativeZero => decide

/-- A double that stands for an integer is taken apart into its magnitude and its sign. -/
theorem StandsFor.parts (h : StandsFor x n) : ∃ d, Dyadic.ofFloat? x = some d ∧
    d.isWhole = true ∧ d.whole = n.natAbs ∧ d.toInt = n ∧ (d.mantissa = 0 ↔ n = 0) := by
  have hlt := h.natAbs_lt
  cases h with
  | negativeZero =>
      exact ⟨⟨true, 0, -1074⟩, by decide +kernel, by decide +kernel, rfl, rfl, by simp⟩
  | ofInt h =>
      by_cases hzero : n = 0
      · subst hzero
        exact ⟨⟨false, 0, -1074⟩, by decide +kernel, by decide +kernel, rfl, rfl, by simp⟩
      · have hpos : 0 < n.natAbs := Int.natAbs_pos.mpr hzero
        have hmantissa : countMantissa n.natAbs ≠ 0 := Nat.ne_of_gt (normal_count hpos hlt).pos
        have hwhole := whole_count hpos hlt
        by_cases hneg : n < 0
        · refine ⟨_, ?_, isWhole_count n.natAbs true, hwhole true, ?_, by simp [hzero, hmantissa]⟩
          · rw [Number.ofInt, if_pos hneg]
            exact ofFloat?_neg_ofNat hpos hlt
          · rw [Dyadic.toInt, if_pos rfl, hwhole true]
            omega
        · refine ⟨_, ?_, isWhole_count n.natAbs false, hwhole false, ?_, by simp [hzero, hmantissa]⟩
          · rw [Number.ofInt, if_neg hneg]
            exact ofFloat?_ofNat hpos hlt
          · rw [Dyadic.toInt, if_neg Bool.false_ne_true, hwhole false]
            omega

theorem StandsFor.toInt?_eq (h : StandsFor x n) : toInt? x = some n := by
  obtain ⟨d, hd, -, -, hint, -⟩ := h.parts
  rw [toInt?, hd, Option.map_some, hint]

/-! ## Magnitudes -/

/-- The magnitude has its leading bit in place. -/
theorem StandsFor.unpack_abs (h : StandsFor x n) (hn : n ≠ 0) : ∃ m e, ∃ hm : Normal m e,
    x.abs.toModel.unpack = .finite .positive m e hm.pos := by
  have hlt := h.natAbs_lt
  have hpos : 0 < n.natAbs := Int.natAbs_pos.mpr hn
  cases h with
  | negativeZero => exact absurd rfl hn
  | ofInt h =>
      have hmodel : ∃ sign, (Number.ofInt n).toModel =
          Float.Model.pack (unpackedCount hpos hlt sign) := by
        by_cases hneg : n < 0
        · exact ⟨.negative, by rw [Number.ofInt, if_pos hneg, toModel_neg_ofNat hpos hlt]⟩
        · exact ⟨.positive, by rw [Number.ofInt, if_neg hneg, toModel_ofNat hpos hlt]⟩
      obtain ⟨sign, hsign⟩ := hmodel
      refine ⟨_, _, normal_count hpos hlt, ?_⟩
      change (Float.Model.pack (Number.ofInt n).toModel.unpack.abs).unpack = _
      rw [hsign, unpack_count]
      exact unpack_count hpos hlt .positive

theorem compare_of_exponent_lt {m m' : Nat} {e e' : Int} (h : e' < e) (hm : 0 < m) (hm' : 0 < m') :
    UnpackedFloat.compare (.finite .positive m e hm) (.finite .positive m' e' hm') = some .gt := by
  have hgt : compare e e' = .gt := Std.compare_eq_gt.mpr h
  change some ((compare e e').then (compare m m')) = _
  rw [hgt]
  rfl

/-- An integer is neither so great nor so small that it is printed with an exponent. -/
theorem StandsFor.not_extreme (h : StandsFor x n) (hn : n ≠ 0) :
    ¬ (x.abs ≥ 1e21 || x.abs < 1e-6) = true := by
  obtain ⟨m, e, hm, habs⟩ := h.unpack_abs hn
  have hlow := hm.low
  have hhigh := hm.high
  have hgreat : (1e21 : Float).toModel.unpack.compare x.abs.toModel.unpack = some .gt := by
    have hparts : (1e21 : Float).toModel.unpack =
        .finite .positive 7629394531250000 17 (by decide) := rfl
    rw [hparts, habs]
    exact compare_of_exponent_lt (by omega) _ _
  have hsmall : x.abs.toModel.unpack.compare (1e-6 : Float).toModel.unpack = some .gt := by
    have hparts : (1e-6 : Float).toModel.unpack =
        .finite .positive 4722366482869645 (-72) (by decide) := rfl
    rw [hparts, habs]
    exact compare_of_exponent_lt (by omega) _ _
  have hle : ¬ (1e21 : Float) ≤ x.abs := by
    intro hle
    have horder : ((1e21 : Float).toModel.unpack.compare x.abs.toModel.unpack).any (·.isLE) =
        true := of_decide_eq_true hle
    rw [hgreat] at horder
    cases horder
  have hlt : ¬ x.abs < (1e-6 : Float) := by
    intro hlt
    have horder : (x.abs.toModel.unpack.compare (1e-6 : Float).toModel.unpack == some .lt) =
        true := of_decide_eq_true hlt
    rw [hsmall] at horder
    cases horder
  simp [hle, hlt]

/-! ## Products and sums -/

theorem eq_of_toModel {x y : Float} (h : x.toModel = y.toModel) : x = y := by
  cases x
  cases y
  exact congrArg Float.ofModel h

theorem countMantissa_eq (a : Nat) : countMantissa a = a * 2 ^ (52 - a.log2) :=
  Nat.shiftLeft_eq ..

/-- The leading bit of a product is where the leading bits of the factors put it, or one further. -/
theorem log2_add_le (ha : 0 < a) (hb : 0 < b) : a.log2 + b.log2 ≤ (a * b).log2 := by
  apply (Nat.le_log2 (Nat.ne_of_gt (Nat.mul_pos ha hb))).mpr
  rw [Nat.pow_add]
  exact Nat.mul_le_mul (Nat.log2_self_le (Nat.ne_of_gt ha)) (Nat.log2_self_le (Nat.ne_of_gt hb))

theorem mul_count (ha : 0 < a) (hb : 0 < b) (ha' : a < 2 ^ 53) (hb' : b < 2 ^ 53)
    (h0 : 0 < a * b) (h : a * b < 2 ^ 53) :
    UnpackedFloat.mul Format.binary64 (unpackedCount ha ha' .positive)
      (unpackedCount hb hb' .positive) = unpackedCount h0 h .positive := by
  have hlog := log2_le h0 h
  have hle := log2_add_le ha hb
  -- the zeros that stand behind the mantissa of the product
  generalize hk : 52 + (a * b).log2 - (a.log2 + b.log2) = k
  have hmantissa : countMantissa a * countMantissa b = countMantissa (a * b) * 2 ^ k := by
    have hshift : (52 - a.log2) + (52 - b.log2) = (52 - (a * b).log2) + k := by omega
    rw [countMantissa_eq, countMantissa_eq, countMantissa_eq, Nat.mul_mul_mul_comm, ← Nat.pow_add,
      hshift, Nat.pow_add, Nat.mul_assoc (a * b)]
  have hexponent : countExponent a + countExponent b = countExponent (a * b) - k := by
    rw [countExponent, countExponent, countExponent]
    omega
  change UnpackedFloat.roundWithAccuracy Format.binary64 (.positive * .positive)
    (countMantissa a * countMantissa b) (countExponent a + countExponent b) .exact = _
  rw [hmantissa, hexponent]
  exact (normal_count h0 h).roundWithAccuracy_eq k

theorem add_count (ha : 0 < a) (hb : 0 < b) (ha' : a < 2 ^ 53) (hb' : b < 2 ^ 53)
    (h0 : 0 < a + b) (h : a + b < 2 ^ 53) :
    UnpackedFloat.add Format.binary64 (unpackedCount ha ha' .positive)
      (unpackedCount hb hb' .positive) = unpackedCount h0 h .positive := by
  have hlog := log2_le h0 h
  have hla := log2_le ha ha'
  have hlb := log2_le hb hb'
  have hleft : a.log2 ≤ (a + b).log2 := by
    apply (Nat.le_log2 (Nat.ne_of_gt h0)).mpr
    exact Nat.le_trans (Nat.log2_self_le (Nat.ne_of_gt ha)) (Nat.le_add_right a b)
  -- the place to which both mantissas are moved
  generalize hlow : min a.log2 b.log2 = low
  have hmoved (c : Nat) (hc : low ≤ c.log2) (hc' : c.log2 ≤ 52) :
      countMantissa c <<< (c.log2 - low) = c * 2 ^ (52 - low) := by
    have hshift : (52 - c.log2) + (c.log2 - low) = 52 - low := by omega
    rw [Nat.shiftLeft_eq, countMantissa_eq, Nat.mul_assoc, ← Nat.pow_add, hshift]
  have hsum : countMantissa a <<< (a.log2 - low) + countMantissa b <<< (b.log2 - low) =
      countMantissa (a + b) * 2 ^ ((a + b).log2 - low) := by
    have hshift : 52 - low = (52 - (a + b).log2) + ((a + b).log2 - low) := by omega
    rw [hmoved a (by omega) hla, hmoved b (by omega) hlb, ← Nat.add_mul, countMantissa_eq, hshift,
      Nat.pow_add, Nat.mul_assoc]
  have hexponent : min (countExponent a) (countExponent b) =
      countExponent (a + b) - ((a + b).log2 - low : Nat) := by
    rw [countExponent, countExponent, countExponent]
    omega
  have hfirst : (countExponent a - min (countExponent a) (countExponent b)).toNat =
      a.log2 - low := by
    rw [countExponent, countExponent]
    omega
  have hsecond : (countExponent b - min (countExponent a) (countExponent b)).toNat =
      b.log2 - low := by
    rw [countExponent, countExponent]
    omega
  have hpos : 0 < countMantissa (a + b) * 2 ^ ((a + b).log2 - low) :=
    Nat.mul_pos (normal_count h0 h).pos (Nat.two_pow_pos _)
  change UnpackedFloat.normalize Format.binary64
    (((countMantissa a <<< (countExponent a - min (countExponent a) (countExponent b)).toNat : Nat)
        : Int) +
      (countMantissa b <<< (countExponent b - min (countExponent a) (countExponent b)).toNat : Nat))
    (min (countExponent a) (countExponent b)) .positive = _
  rw [hfirst, hsecond, ← Int.natCast_add, hsum, hexponent, normalize_of_pos hpos]
  exact (normal_count h0 h).round_eq _

section Operations

variable (ha : a < 2 ^ 53) (hb : b < 2 ^ 53)

include ha hb

/-- A product of counts is exact. -/
theorem ofNat_mul (h : a * b < 2 ^ 53) : ofNat a * ofNat b = ofNat (a * b) := by
  apply eq_of_toModel
  change Float.Model.pack (UnpackedFloat.mul Format.binary64 (ofNat a).toModel.unpack
    (ofNat b).toModel.unpack) = _
  rcases Nat.eq_zero_or_pos a with rfl | ha0
  · rcases Nat.eq_zero_or_pos b with rfl | hb0
    · rfl
    · rw [unpack_ofNat hb0 hb, Nat.zero_mul]
      rfl
  · rcases Nat.eq_zero_or_pos b with rfl | hb0
    · rw [unpack_ofNat ha0 ha, Nat.mul_zero]
      rfl
    · have h0 : 0 < a * b := Nat.mul_pos ha0 hb0
      rw [unpack_ofNat ha0 ha, unpack_ofNat hb0 hb, mul_count ha0 hb0 ha hb h0 h,
        toModel_ofNat h0 h]

/-- A sum of counts is exact. -/
theorem ofNat_add (h : a + b < 2 ^ 53) : ofNat a + ofNat b = ofNat (a + b) := by
  apply eq_of_toModel
  change Float.Model.pack (UnpackedFloat.add Format.binary64 (ofNat a).toModel.unpack
    (ofNat b).toModel.unpack) = _
  rcases Nat.eq_zero_or_pos a with rfl | ha0
  · rcases Nat.eq_zero_or_pos b with rfl | hb0
    · rfl
    · rw [unpack_ofNat hb0 hb, Nat.zero_add, toModel_ofNat hb0 hb]
      rfl
  · rcases Nat.eq_zero_or_pos b with rfl | hb0
    · rw [unpack_ofNat ha0 ha, Nat.add_zero, toModel_ofNat ha0 ha]
      rfl
    · have h0 : 0 < a + b := Nat.add_pos_left ha0 b
      rw [unpack_ofNat ha0 ha, unpack_ofNat hb0 hb, add_count ha0 hb0 ha hb h0 h,
        toModel_ofNat h0 h]

end Operations

end StepTrace.Number
