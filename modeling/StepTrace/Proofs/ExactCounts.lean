import Mathlib.Algebra.Group.Nat.Defs
import StepTrace.Number.Binary

/-!
# Counts as doubles

The double nearest to a count below `2 ^ 53` is the count itself. Its digits fit into the mantissa,
so nothing is rounded, neither when the count becomes a double nor in the product with the power of
ten that a numeral asks for (`Normal.roundWithAccuracy_eq`). So a count comes back from its double
as it was (`toCount_ofNat`).

* `Normal`: a mantissa with its leading bit in place.
* `ofFloat?_ofNat`: the parts of the double of a count.
-/

namespace StepTrace.Number

open Float.Model (Format UnpackedFloat)
open Float.Model.UnpackedFloat (ExtendedMantissa Sign packComponents)

variable {n m : Nat} {e : Int} {sign : Sign}

/-- The mantissa has its leading bit in place, and the exponent is not extreme: it is one of a count
below `2 ^ 53`. -/
structure Normal (m : Nat) (e : Int) : Prop where
  le : 2 ^ 52 ≤ m
  lt : m < 2 ^ 53
  low : -52 ≤ e
  high : e ≤ 0

namespace Normal

theorem pos (h : Normal m e) : 0 < m :=
  Nat.lt_of_lt_of_le (by decide) h.le

/-! ## Bits -/

theorem log2_eq (h : Normal m e) : m.log2 = 52 :=
  (Nat.log2_eq_iff (Nat.ne_of_gt h.pos)).mpr ⟨h.le, h.lt⟩

theorem pack_eq (h : Normal m e) (sign : Sign) :
    UnpackedFloat.pack Format.binary64 (.finite sign m e h.pos) =
      packComponents Format.binary64 sign (BitVec.ofNat 11 (e + 1075).toNat)
        (BitVec.ofNat 52 m) := by
  have hlow := h.low
  have hhigh := h.high
  have hpack : UnpackedFloat.pack Format.binary64 (.finite sign m e h.pos) =
      if 2048 ≤ (e + 1023 + 52).toNat + 1 then
        UnpackedFloat.packedInfinity Format.binary64 sign
      else if m.log2 + 1 = 53 then
        packComponents Format.binary64 sign (BitVec.ofNat 11 (e + 1023 + 52).toNat)
          (BitVec.ofNat 52 m)
      else packComponents Format.binary64 sign 0#11 (BitVec.ofNat 52 m) := rfl
  rw [hpack, if_neg (by omega), if_pos (by rw [h.log2_eq]), Int.add_assoc]
  rfl

theorem toNat_exponent (h : Normal m e) :
    (BitVec.ofNat 11 (e + 1075).toNat).toNat = (e + 1075).toNat := by
  have hlow := h.low
  have hhigh := h.high
  rw [BitVec.toNat_ofNat]
  omega

/-- The leading bit is not kept. -/
theorem toNat_mantissa (h : Normal m e) : (BitVec.ofNat 52 m).toNat = m - 2 ^ 52 := by
  have hle := h.le
  have hlt := h.lt
  rw [BitVec.toNat_ofNat]
  omega

theorem toNat_packComponents (sign : Sign) (exponent : BitVec 11) (mantissa : BitVec 52) :
    (packComponents Format.binary64 sign exponent mantissa).toNat =
      (sign.toBitVec.toNat * 2 ^ 11 + exponent.toNat) * 2 ^ 52 + mantissa.toNat := by
  rw [packComponents, BitVec.toNat_append, BitVec.toNat_append]
  rw [Nat.shiftLeft_eq, Nat.shiftLeft_eq, Nat.mul_comm, Nat.mul_comm sign.toBitVec.toNat,
    ← Nat.two_pow_add_eq_or_of_lt exponent.isLt, ← Nat.two_pow_add_eq_or_of_lt mantissa.isLt,
    Nat.mul_comm (2 ^ 52)]

theorem toNat_pack (h : Normal m e) (sign : Sign) :
    (UnpackedFloat.pack Format.binary64 (.finite sign m e h.pos)).toNat =
      (sign.toBitVec.toNat * 2 ^ 11 + (e + 1075).toNat) * 2 ^ 52 + (m - 2 ^ 52) := by
  rw [h.pack_eq, toNat_packComponents, h.toNat_exponent, h.toNat_mantissa]

theorem unpackSign_packComponents (sign : Sign) (exponent : BitVec 11) (mantissa : BitVec 52) :
    UnpackedFloat.unpackSign (packComponents Format.binary64 sign exponent mantissa) =
      sign.toBitVec := by
  have hmantissa : mantissa.toNat < 2 ^ 52 := mantissa.isLt
  have hexponent : exponent.toNat < 2 ^ 11 := exponent.isLt
  have hsign : sign.toBitVec.toNat < 2 ^ 1 := sign.toBitVec.isLt
  refine BitVec.eq_of_toNat_eq ?_
  change (BitVec.extractLsb' 63 1
    (packComponents Format.binary64 sign exponent mantissa)).toNat = _
  rw [BitVec.extractLsb'_toNat, toNat_packComponents]
  change ((sign.toBitVec.toNat * 2 ^ 11 + exponent.toNat) * 2 ^ 52 + mantissa.toNat) >>> 63 % 2 = _
  rw [Nat.shiftRight_eq_div_pow]
  omega

/-- What the bits stand for, from their three parts. -/
theorem unpack_of_parts {bits : BitVec Format.binary64.numBits} {exponent : BitVec 11}
    {mantissa : BitVec 52} (hsign : UnpackedFloat.unpackSign bits = sign.toBitVec)
    (hexponent : UnpackedFloat.unpackExponent bits = exponent)
    (hmantissa : UnpackedFloat.unpackMantissa bits = mantissa) (hinfinite : exponent ≠ -1#11)
    (hsubnormal : exponent ≠ 0#11) (hm : (1#1 ++ mantissa).toNat = m)
    (he : (exponent.toNat : Int) - (1023 + 52) = e) (hpos : 0 < m) :
    UnpackedFloat.unpack Format.binary64 bits = .finite sign m e hpos := by
  subst hexponent hmantissa hm he
  delta UnpackedFloat.unpack
  refine (if_neg hinfinite).trans ((if_neg hsubnormal).trans ?_)
  have hsame : Sign.ofBitVec (UnpackedFloat.unpackSign bits) = sign := by
    rw [hsign]
    cases sign with
    | negative => rfl
    | positive => rfl
  exact congrArg (fun sign => UnpackedFloat.finite sign _ _ hpos) hsame

theorem unpack_pack (h : Normal m e) (sign : Sign) :
    UnpackedFloat.unpack Format.binary64
        (UnpackedFloat.pack Format.binary64 (.finite sign m e h.pos)) =
      .finite sign m e h.pos := by
  have hlow := h.low
  have hhigh := h.high
  have hle := h.le
  have hlt := h.lt
  have hexponent := h.toNat_exponent
  have hinfinite : BitVec.ofNat 11 (e + 1075).toNat ≠ -1#11 := by
    intro heq
    rw [heq] at hexponent
    change 2047 = _ at hexponent
    omega
  have hsubnormal : BitVec.ofNat 11 (e + 1075).toNat ≠ 0#11 := by
    intro heq
    rw [heq] at hexponent
    change 0 = _ at hexponent
    omega
  have hmantissa : (1#1 ++ BitVec.ofNat 52 m).toNat = m := by
    rw [BitVec.toNat_append, h.toNat_mantissa, Nat.shiftLeft_eq]
    change 1 * 2 ^ 52 ||| _ = _
    rw [Nat.mul_comm, ← Nat.two_pow_add_eq_or_of_lt (by omega)]
    omega
  have hplace : ((BitVec.ofNat 11 (e + 1075).toNat).toNat : Int) - (1023 + 52) = e := by omega
  rw [h.pack_eq]
  exact unpack_of_parts (unpackSign_packComponents _ _ _)
    UnpackedFloat.unpackExponent_packComponents UnpackedFloat.unpackMantissa_packComponents
    hinfinite hsubnormal hmantissa hplace h.pos

/-! ## Rounding -/

/-- Zeros behind the mantissa are shifted out without a trace. -/
theorem shiftRight_eq (m k : Nat) :
    (⟨m * 2 ^ k, false, false⟩ : ExtendedMantissa) >>> k = ⟨m, false, false⟩ := by
  change Nat.repeat ExtendedMantissa.shiftRightOne k ⟨m * 2 ^ k, false, false⟩ = _
  induction k generalizing m with
  | zero =>
      rw [Nat.pow_zero, Nat.mul_one]
      rfl
  | succ k ih =>
      have hsplit : m * 2 ^ (k + 1) = m * 2 * 2 ^ k := by rw [Nat.pow_succ', Nat.mul_assoc]
      rw [Nat.repeat, hsplit, ih]
      simp [ExtendedMantissa.shiftRightOne]

/-- Zeros behind the mantissa do not change which exponent is aimed at. -/
theorem targetExponent_eq (h : Normal m e) (k : Nat) :
    Format.binary64.targetExponent (Float.Model.totalExponent (m * 2 ^ k) (e - k)) = e := by
  have hlow := h.low
  have hlog : (m * 2 ^ k).log2 = 52 + k := by
    have hpow : 0 < 2 ^ k := Nat.two_pow_pos k
    refine (Nat.log2_eq_iff (Nat.ne_of_gt (Nat.mul_pos h.pos hpow))).mpr ⟨?_, ?_⟩
    · rw [Nat.pow_add]
      exact Nat.mul_le_mul_right _ h.le
    · rw [Nat.add_right_comm, Nat.pow_add]
      exact Nat.mul_lt_mul_of_pos_right h.lt hpow
  have hmin : Format.binary64.minExponent = -1074 := rfl
  have hbits : Format.binary64.mantissaBits = 53 := rfl
  rw [Format.targetExponent, Float.Model.totalExponent, hlog, hmin, hbits]
  omega

theorem shiftToTargetExponent_eq (h : Normal m e) (k : Nat) :
    UnpackedFloat.shiftToTargetExponent Format.binary64 (m * 2 ^ k) (e - k) .exact =
      (⟨m, false, false⟩, e) := by
  have hshift : (e - (e - k)).toNat = k := by omega
  rw [UnpackedFloat.shiftToTargetExponent]
  simp only [h.targetExponent_eq k, UnpackedFloat.shiftToExponent, hshift,
    ExtendedMantissa.ofMantissaAndAccuracy, shiftRight_eq]
  rw [Int.sub_add_cancel]

/-- What fits into the mantissa is not rounded. -/
theorem roundWithAccuracy_eq (h : Normal m e) (k : Nat) :
    UnpackedFloat.roundWithAccuracy Format.binary64 .positive (m * 2 ^ k) (e - k) .exact =
      .finite .positive m e h.pos := by
  have hexact : (⟨m, false, false⟩ : ExtendedMantissa).roundedMantissa = m := rfl
  have hagain := h.shiftToTargetExponent_eq 0
  rw [Nat.pow_zero, Nat.mul_one, Int.natCast_zero, Int.sub_zero] at hagain
  rw [UnpackedFloat.roundWithAccuracy, h.shiftToTargetExponent_eq k]
  dsimp only
  rw [hexact, hagain]
  exact dif_neg (Nat.ne_of_gt h.pos)

theorem round_eq (h : Normal m e) (k : Nat) :
    UnpackedFloat.round Format.binary64 .positive (m * 2 ^ k) (e - k) =
      .finite .positive m e h.pos := by
  have hshift : (e - k - e).toNat = 0 := by omega
  have hdecrease : UnpackedFloat.decreaseExponent (m * 2 ^ k) (e - k) e = (m * 2 ^ k, e - k) := by
    simp only [UnpackedFloat.decreaseExponent, hshift, Nat.shiftLeft_zero, Int.natCast_zero,
      Int.sub_zero]
  rw [UnpackedFloat.round]
  dsimp only
  rw [h.targetExponent_eq k, hdecrease]
  exact h.roundWithAccuracy_eq k

end Normal

/-! ## The double of a count -/

/-- The digits of a count, with the leading bit in place. -/
def countMantissa (n : Nat) : Nat :=
  n <<< (52 - n.log2)

/-- How far the digits of a count are off their place. -/
def countExponent (n : Nat) : Int :=
  n.log2 - 52

section Counts

variable (h0 : 0 < n) (h : n < 2 ^ 53)

include h0 h

theorem log2_le : n.log2 ≤ 52 :=
  Nat.le_of_lt_succ ((Nat.log2_lt (Nat.ne_of_gt h0)).mpr h)

theorem normal_count : Normal (countMantissa n) (countExponent n) := by
  have hlog := log2_le h0 h
  have hsplit (k : Nat) : 2 ^ (52 + k) = 2 ^ (n.log2 + k) * 2 ^ (52 - n.log2) := by
    rw [← Nat.pow_add]
    congr 1
    omega
  constructor
  · calc 2 ^ 52 = 2 ^ n.log2 * 2 ^ (52 - n.log2) := hsplit 0
      _ ≤ n * 2 ^ (52 - n.log2) :=
        Nat.mul_le_mul_right _ (Nat.log2_self_le (Nat.ne_of_gt h0))
      _ = countMantissa n := (Nat.shiftLeft_eq ..).symm
  · calc countMantissa n = n * 2 ^ (52 - n.log2) := Nat.shiftLeft_eq ..
      _ < 2 ^ (n.log2 + 1) * 2 ^ (52 - n.log2) :=
        Nat.mul_lt_mul_of_pos_right Nat.lt_log2_self (Nat.two_pow_pos _)
      _ = 2 ^ 53 := (hsplit 1).symm
  · rw [countExponent]
    omega
  · rw [countExponent]
    omega

/-- The parts of a count with a sign. -/
def unpackedCount (sign : Sign) : UnpackedFloat :=
  .finite sign (countMantissa n) (countExponent n) (normal_count h0 h).pos

theorem unpack_count (sign : Sign) :
    (Float.Model.pack (unpackedCount h0 h sign)).unpack = unpackedCount h0 h sign :=
  (normal_count h0 h).unpack_pack sign

theorem round_count : UnpackedFloat.round Format.binary64 .positive n 0 =
    unpackedCount h0 h .positive := by
  have hlog := log2_le h0 h
  have htarget : Format.binary64.targetExponent (Float.Model.totalExponent n 0) =
      countExponent n := by
    have hmin : Format.binary64.minExponent = -1074 := rfl
    have hbits : Format.binary64.mantissaBits = 53 := rfl
    rw [Format.targetExponent, Float.Model.totalExponent, hmin, hbits, countExponent]
    omega
  have hshift : (0 - countExponent n).toNat = 52 - n.log2 := by
    rw [countExponent]
    omega
  have hexponent : (0 : Int) - ((52 - n.log2 : Nat) : Int) = countExponent n := by
    rw [countExponent]
    omega
  have hround := (normal_count h0 h).roundWithAccuracy_eq 0
  rw [Nat.pow_zero, Nat.mul_one, Int.natCast_zero, Int.sub_zero] at hround
  rw [UnpackedFloat.round]
  simp only [htarget, UnpackedFloat.decreaseExponent, hshift, hexponent]
  exact hround

omit h in
theorem normalize_of_pos (e : Int) :
    UnpackedFloat.normalize Format.binary64 n e .positive =
      UnpackedFloat.round Format.binary64 .positive n e := by
  have hpos : compare (n : Int) 0 = .gt := by
    simp only [compare, compareOfLessAndEq]
    rw [if_neg (by omega), if_neg (by omega)]
  rw [UnpackedFloat.normalize, hpos]
  rfl

theorem ofUInt64_count :
    UnpackedFloat.ofUInt64 Format.binary64 n.toUInt64 = unpackedCount h0 h .positive := by
  have hn : n.toUInt64.toNat = n := by
    change n % 2 ^ 64 = n
    omega
  rw [UnpackedFloat.ofUInt64, UnpackedFloat.ofNat, UnpackedFloat.ofInt, hn, normalize_of_pos h0]
  exact round_count h0 h

/-- The zeroth power of ten is one, and multiplying by it changes nothing. -/
theorem mul_one_count :
    UnpackedFloat.mul Format.binary64 (unpackedCount h0 h .positive)
      (Float.ofBits 4607182418800017408).toModel.unpack = unpackedCount h0 h .positive := by
  have hone : (Float.ofBits 4607182418800017408).toModel.unpack =
      .finite .positive (2 ^ 52) (-52) (by decide) := rfl
  rw [hone]
  exact (normal_count h0 h).roundWithAccuracy_eq 52

theorem toModel_ofNat : (ofNat n).toModel = Float.Model.pack (unpackedCount h0 h .positive) := by
  have hlog := log2_le h0 h
  have hconverted : n.toUInt64.toFloat.toModel =
      Float.Model.pack (unpackedCount h0 h .positive) :=
    congrArg Float.Model.pack (ofUInt64_count h0 h)
  have hproduct : Float.ofScientific n false 0 =
      n.toUInt64.toFloat * Float.ofBits 4607182418800017408 := by
    rw [Float.ofScientific, dif_pos ⟨h, by decide⟩]
    rfl
  rw [ofNat, if_neg (by omega), hproduct]
  change Float.Model.pack
    (UnpackedFloat.mul Format.binary64 n.toUInt64.toFloat.toModel.unpack _) = _
  rw [hconverted, unpack_count, mul_one_count]

theorem unpack_ofNat : (ofNat n).toModel.unpack = unpackedCount h0 h .positive := by
  rw [toModel_ofNat h0 h, unpack_count]

theorem toModel_neg_ofNat :
    (-ofNat n).toModel = Float.Model.pack (unpackedCount h0 h .negative) :=
  congrArg (fun parts : UnpackedFloat => Float.Model.pack parts.neg) (unpack_ofNat h0 h)

theorem ofFloat?_of_toModel {x : Float}
    (hx : x.toModel = Float.Model.pack (unpackedCount h0 h sign)) :
    Dyadic.ofFloat? x =
      some ⟨sign.toBitVec.toNat = 1, countMantissa n, countExponent n⟩ := by
  have hlog := log2_le h0 h
  have hle := (normal_count h0 h).le
  have hlt := (normal_count h0 h).lt
  have hsign : sign.toBitVec.toNat < 2 ^ 1 := sign.toBitVec.isLt
  have hbits : x.toBits.toNat = (sign.toBitVec.toNat * 2 ^ 11 + (n.log2 + 1023)) * 2 ^ 52 +
      (countMantissa n - 2 ^ 52) := by
    have hexponent : (countExponent n + 1075).toNat = n.log2 + 1023 := by
      rw [countExponent]
      omega
    have htoBits : x.toBits = x.toModel.toBits := rfl
    rw [htoBits, hx, ← hexponent]
    exact (normal_count h0 h).toNat_pack sign
  generalize hbit : sign.toBitVec.toNat = bit at hbits hsign ⊢
  have hfield : ((bit * 2 ^ 11 + (n.log2 + 1023)) * 2 ^ 52 +
      (countMantissa n - 2 ^ 52)) >>> 52 % 2048 = n.log2 + 1023 := by
    rw [Nat.shiftRight_eq_div_pow]
    omega
  have hshifted : ((bit * 2 ^ 11 + (n.log2 + 1023)) * 2 ^ 52 +
      (countMantissa n - 2 ^ 52)) >>> 63 = bit := by
    rw [Nat.shiftRight_eq_div_pow]
    omega
  have hleading : (1 <<< 52 : Nat) = 2 ^ 52 := rfl
  have hfraction : ((bit * 2 ^ 11 + (n.log2 + 1023)) * 2 ^ 52 +
      (countMantissa n - 2 ^ 52)) % 2 ^ 52 + 2 ^ 52 = countMantissa n := by omega
  have hexponent : ((n.log2 + 1023 : Nat) : Int) - 1075 = countExponent n := by
    rw [countExponent]
    omega
  unfold Dyadic.ofFloat?
  simp only [hbits, hfield, hshifted, hleading, hfraction, hexponent]
  rw [if_neg (by omega), if_neg (by omega)]

theorem ofFloat?_ofNat :
    Dyadic.ofFloat? (ofNat n) = some ⟨false, countMantissa n, countExponent n⟩ :=
  ofFloat?_of_toModel h0 h (toModel_ofNat h0 h)

theorem ofFloat?_neg_ofNat :
    Dyadic.ofFloat? (-ofNat n) = some ⟨true, countMantissa n, countExponent n⟩ :=
  ofFloat?_of_toModel h0 h (toModel_neg_ofNat h0 h)

theorem whole_count (negative : Bool) :
    Dyadic.whole ⟨negative, countMantissa n, countExponent n⟩ = n := by
  have hlog := log2_le h0 h
  unfold Dyadic.whole
  dsimp only
  split
  · rename_i hexponent
    rw [countExponent] at hexponent
    have hshift : (countExponent n).toNat = 0 := by
      rw [countExponent]
      omega
    have hplace : 52 - n.log2 = 0 := by omega
    rw [hshift, countMantissa, hplace]
    rfl
  · have hshift : (-countExponent n).toNat = 52 - n.log2 := by
      rw [countExponent]
      omega
    rw [hshift, countMantissa, Nat.shiftLeft_shiftRight]

omit h0 h in
theorem isWhole_count (n : Nat) (negative : Bool) :
    Dyadic.isWhole ⟨negative, countMantissa n, countExponent n⟩ = true := by
  by_cases hexponent : countExponent n ≥ 0
  · simp [Dyadic.isWhole, hexponent]
  · have hshift : (-countExponent n).toNat = 52 - n.log2 := by
      rw [countExponent]
      omega
    have hmod : countMantissa n % (1 <<< (52 - n.log2)) = 0 := by
      rw [countMantissa, Nat.shiftLeft_eq, Nat.shiftLeft_eq, Nat.one_mul]
      exact Nat.mul_mod_left ..
    simp [Dyadic.isWhole, hshift, hmod]

end Counts

section Exact

variable (h : n < 2 ^ 53)

include h

theorem toCount_ofNat : toCount (ofNat n) = n := by
  rcases Nat.eq_zero_or_pos n with rfl | h0
  · decide +kernel
  · have hlimit : (1 <<< 64 - 1 : Nat) = 2 ^ 64 - 1 := rfl
    rw [toCount, ofFloat?_ofNat h0 h]
    dsimp only
    rw [whole_count h0 h, if_neg Bool.false_ne_true]
    omega

theorem isInteger_ofNat : isInteger (ofNat n) = true := by
  rcases Nat.eq_zero_or_pos n with rfl | h0
  · decide +kernel
  · rw [isInteger, ofFloat?_ofNat h0 h]
    exact isWhole_count n false

theorem toInt?_ofNat : toInt? (ofNat n) = some n := by
  rcases Nat.eq_zero_or_pos n with rfl | h0
  · decide +kernel
  · rw [toInt?, ofFloat?_ofNat h0 h]
    simp [Dyadic.toInt, whole_count h0 h]

theorem ofNat_nonneg : ofNat n ≥ 0 := by
  rcases Nat.eq_zero_or_pos n with rfl | h0
  · decide +kernel
  · have hzero : (0 : Float).toModel.unpack = .zero .positive := rfl
    change Float.le 0 (ofNat n) = true
    refine decide_eq_true ?_
    change UnpackedFloat.le (0 : Float).toModel.unpack (ofNat n).toModel.unpack = true
    rw [hzero, unpack_ofNat h0 h]
    rfl

end Exact

end StepTrace.Number
