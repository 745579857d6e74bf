import StepTrace.Number.Reading
import StepTrace.Proofs.ExactCounts

/-!
# The doubles of numerals

Whatever digits and exponent a numeral has, the double that it denotes is a number, an infinity
where the numeral is beyond the range. Rounding makes a zero or a finite number out of finite
numbers (`isNaN_roundWithAccuracy`), a power of ten is neither zero nor infinite, and what is no
not-a-number is not packed as one (`isNaN_unpack_pack`).

* `isNaN_ofScientific`: digits times a power of ten.
* `isNaN_of_readDecimal?`: what a decimal numeral is read as.
-/

namespace StepTrace.Number

open Float.Model (Format UnpackedFloat)
open Float.Model.UnpackedFloat (Accuracy Sign packComponents)

variable {parts : UnpackedFloat} {x : Float} {m m' n : Nat} {e e' : Int}

/-! ## Packing -/

section Cases

variable {c : Prop} [Decidable c]

theorem isNaN_ite {a b : UnpackedFloat} (ha : c → a.isNaN = false) (hb : ¬ c → b.isNaN = false) :
    (if c then a else b).isNaN = false := by
  split
  · next h => exact ha h
  · next h => exact hb h

theorem isNaN_dite {a : c → UnpackedFloat} {b : ¬ c → UnpackedFloat}
    (ha : ∀ h, (a h).isNaN = false) (hb : ∀ h, (b h).isNaN = false) :
    (if h : c then a h else b h).isNaN = false := by
  split
  · exact ha _
  · exact hb _

end Cases

/-- Not-a-number has all bits of the exponent set and some bit of the mantissa. -/
theorem isNaN_unpack {bits : BitVec Format.binary64.numBits}
    (h : UnpackedFloat.unpackExponent bits = -1#11 → UnpackedFloat.unpackMantissa bits = 0#52) :
    (UnpackedFloat.unpack Format.binary64 bits).isNaN = false := by
  delta UnpackedFloat.unpack
  apply isNaN_ite
  · intro hexponent
    exact isNaN_ite (fun _ => rfl) fun hmantissa => absurd (h hexponent) hmantissa
  · intro _
    apply isNaN_ite
    · intro _
      exact isNaN_dite (fun _ => rfl) fun _ => rfl
    · intro _
      rfl

theorem isNaN_unpack_packComponents (sign : Sign) {exponent : BitVec 11} {mantissa : BitVec 52}
    (h : exponent = -1#11 → mantissa = 0#52) :
    (UnpackedFloat.unpack Format.binary64
      (packComponents Format.binary64 sign exponent mantissa)).isNaN = false := by
  refine isNaN_unpack fun hexponent => ?_
  rw [UnpackedFloat.unpackExponent_packComponents] at hexponent
  rw [UnpackedFloat.unpackMantissa_packComponents]
  exact h hexponent

/-- What is no not-a-number is not packed as one. -/
theorem isNaN_unpack_pack (h : parts.isNaN = false) :
    (UnpackedFloat.unpack Format.binary64
      (UnpackedFloat.pack Format.binary64 parts)).isNaN = false := by
  cases parts with
  | notANumber => exact absurd h (by decide)
  | infinity sign => exact isNaN_unpack_packComponents sign fun _ => rfl
  | zero sign => exact isNaN_unpack_packComponents sign fun _ => rfl
  | finite sign m e hpos =>
      have hpack : UnpackedFloat.pack Format.binary64 (.finite sign m e hpos) =
          if 2048 ≤ (e + 1023 + 52).toNat + 1 then
            UnpackedFloat.packedInfinity Format.binary64 sign
          else if m.log2 + 1 = 53 then
            packComponents Format.binary64 sign (BitVec.ofNat 11 (e + 1023 + 52).toNat)
              (BitVec.ofNat 52 m)
          else packComponents Format.binary64 sign 0#11 (BitVec.ofNat 52 m) := rfl
      rw [hpack]
      split
      · exact isNaN_unpack_packComponents sign fun _ => rfl
      · next hrange =>
          split
          · refine isNaN_unpack_packComponents sign fun hexponent => ?_
            -- the field of an exponent that is in range is not full
            have hfield := congrArg BitVec.toNat hexponent
            rw [BitVec.toNat_ofNat] at hfield
            change _ = 2047 at hfield
            omega
          · refine isNaN_unpack_packComponents sign fun hexponent => ?_
            exact absurd hexponent (by decide)

theorem isNaN_of_toModel (hx : x.toModel = Float.Model.pack parts) (h : parts.isNaN = false) :
    x.isNaN = false := by
  change x.toModel.unpack.isNaN = false
  rw [hx]
  exact isNaN_unpack_pack h

theorem isNaN_neg (h : x.isNaN = false) : (-x).isNaN = false := by
  have hmodel : (-x).toModel = Float.Model.pack x.toModel.unpack.neg := rfl
  refine isNaN_of_toModel hmodel ?_
  change x.toModel.unpack.isNaN = false at h
  cases hparts : x.toModel.unpack with
  | notANumber => exact absurd (hparts ▸ h) (by decide)
  | _ => rfl

/-! ## Rounding -/

theorem isNaN_roundWithAccuracy (sign : Sign) (m : Nat) (e : Int) (accuracy : Accuracy) :
    (UnpackedFloat.roundWithAccuracy Format.binary64 sign m e accuracy).isNaN = false := by
  rw [UnpackedFloat.roundWithAccuracy]
  exact isNaN_dite (fun _ => rfl) fun _ => rfl

section Operations

variable (hm : 0 < m) (hm' : 0 < m')

theorem isNaN_mul : (UnpackedFloat.mul Format.binary64 (.finite .positive m e hm)
    (.finite .positive m' e' hm')).isNaN = false :=
  isNaN_roundWithAccuracy _ _ _ _

theorem isNaN_div : (UnpackedFloat.div Format.binary64 (.finite .positive m e hm)
    (.finite .positive m' e' hm')).isNaN = false :=
  isNaN_roundWithAccuracy _ _ _ _

end Operations

/-! ## Powers of ten -/

/-- Positive and not infinite. -/
def isPositive : UnpackedFloat → Bool
  | .finite .positive .. => true
  | _ => false

theorem exists_of_isPositive (h : isPositive parts = true) :
    ∃ m e, ∃ hm : 0 < m, parts = .finite .positive m e hm := by
  cases parts with
  | finite sign m e hm =>
      cases sign with
      | positive => exact ⟨m, e, hm, rfl⟩
      | negative => exact absurd h Bool.false_ne_true
  | _ => exact absurd h Bool.false_ne_true

/-- The powers of ten that are doubles. -/
theorem isPositive_power {k : Nat} (hk : k < Float.exactlyRepresentablePowersOfTen.size) :
    isPositive Float.exactlyRepresentablePowersOfTen[k].toModel.unpack = true := by
  have hall : Float.exactlyRepresentablePowersOfTen.toList.all
      (fun x => isPositive x.toModel.unpack) = true := by decide +kernel
  exact List.all_eq_true.mp hall _ (Array.getElem_mem_toList hk)

theorem isNaN_ofScientific_parts (m : Nat) (e : Int) :
    (UnpackedFloat.ofScientific Format.binary64 m e).isNaN = false := by
  rw [UnpackedFloat.ofScientific]
  refine isNaN_dite (fun _ => rfl) fun _ => ?_
  refine isNaN_ite (fun _ => rfl) fun _ => ?_
  refine isNaN_ite (fun _ => rfl) fun _ => ?_
  exact isNaN_ite (fun _ => isNaN_mul _ _) fun _ => isNaN_div _ _

/-- A count times or through one of the powers. -/
theorem isNaN_scaled (h : n < 2 ^ 53) (negative : Bool) {power : Float}
    (hpower : isPositive power.toModel.unpack = true) :
    (if negative then n.toUInt64.toFloat / power else n.toUInt64.toFloat * power).isNaN =
      false := by
  obtain ⟨m, e, hm, hparts⟩ := exists_of_isPositive hpower
  have hdiv : (n.toUInt64.toFloat / power).toModel = Float.Model.pack (UnpackedFloat.div
    Format.binary64 n.toUInt64.toFloat.toModel.unpack power.toModel.unpack) := rfl
  have hmul : (n.toUInt64.toFloat * power).toModel = Float.Model.pack (UnpackedFloat.mul
    Format.binary64 n.toUInt64.toFloat.toModel.unpack power.toModel.unpack) := rfl
  rw [hparts] at hdiv hmul
  rcases Nat.eq_zero_or_pos n with rfl | h0
  · have hzero : (0 : Nat).toUInt64.toFloat.toModel.unpack = .zero .positive := rfl
    rw [hzero] at hdiv hmul
    split
    · exact isNaN_of_toModel hdiv rfl
    · exact isNaN_of_toModel hmul rfl
  · have hcount : n.toUInt64.toFloat.toModel.unpack = unpackedCount h0 h .positive := by
      have hmodel : n.toUInt64.toFloat.toModel = Float.Model.pack (unpackedCount h0 h .positive) :=
        congrArg Float.Model.pack (ofUInt64_count h0 h)
      rw [hmodel, unpack_count]
    rw [hcount] at hdiv hmul
    split
    · exact isNaN_of_toModel hdiv (isNaN_div _ _)
    · exact isNaN_of_toModel hmul (isNaN_mul _ _)

theorem isNaN_ofScientific (n : Nat) (negative : Bool) (k : Nat) :
    (Float.ofScientific n negative k).isNaN = false := by
  rw [Float.ofScientific]
  split
  · next h => exact isNaN_scaled h.1 negative (isPositive_power _)
  · exact isNaN_of_toModel rfl (isNaN_ofScientific_parts _ _)

/-! ## Reading -/

theorem isNaN_ofDecimal (digits : List Char) (shift : Int) :
    (ofDecimal digits shift).isNaN = false := by
  rw [ofDecimal]
  dsimp only
  split
  · rfl
  · split
    · rfl
    · split
      · exact isNaN_ofScientific _ _ _
      · exact isNaN_ofScientific _ _ _

/-- A numeral denotes a number. -/
theorem isNaN_of_readDecimal? {text : List Char} (h : readDecimal? text = some x) :
    x.isNaN = false := by
  have hread : ∃ whole fraction rest, readDecimal? text =
      if whole.isEmpty && fraction.isEmpty then none
      else (readExponent? rest).map fun e =>
        if (splitSign text).1 then -ofDecimal (whole ++ fraction) (e - fraction.length)
        else ofDecimal (whole ++ fraction) (e - fraction.length) := ⟨_, _, _, rfl⟩
  obtain ⟨whole, fraction, rest, hread⟩ := hread
  rw [hread, Option.ite_none_left_eq_some] at h
  obtain ⟨shift, -, rfl⟩ := Option.map_eq_some_iff.mp h.2
  split
  · exact isNaN_neg (isNaN_ofDecimal _ _)
  · exact isNaN_ofDecimal _ _

end StepTrace.Number
