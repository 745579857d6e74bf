import Mathlib.Algebra.Group.Nat.Defs
import StepTrace.Eval.Program

/-!
# The limit on the width of integers

An integer is as wide as its magnitude has binary digits. The operators that can make an integer
much wider, the product, the power and the shift to the left, ask for the width before they
compute, and quotients, remainders, shifts to the right, disjunctions and the change of the sign
give nothing wider than their operands. The others ask for nothing: sums, differences, the
conjunction of two negative integers, the exclusive disjunction of a negative one with one that is
not, the complement, `++` and `--` go one digit beyond the limit when their operands reach up to
it.

* `IntegerOperation.respectsLimit_iff`: what an operation returns for operands within the limit is
  within the limit, except under the conditions of `IntegerOperation.Overflows`, and is never more
  than one digit beyond.
* `IntegerOperation.not_respectsLimit_doubled`: a sum that is beyond the limit.
-/

namespace StepTrace

open Syntax (StrictOp UpdateOp)

namespace Number

variable {w : Nat} {m n : Int}

/-! ## Widths of results -/

theorem bitLength_le_iff : bitLength n ≤ w ↔ n.natAbs < 2 ^ w := by
  unfold bitLength
  split
  next h =>
    subst h
    exact iff_of_true (Nat.zero_le w) (Nat.two_pow_pos w)
  next h => rw [Nat.succ_le_iff, Nat.log2_lt (by omega)]

theorem natAbs_lt_two_pow (n : Int) : n.natAbs < 2 ^ bitLength n :=
  bitLength_le_iff.mp (Nat.le_refl _)

/-- What is no greater in magnitude is no wider. -/
theorem bitLength_le_of_natAbs_le (h : m.natAbs ≤ n.natAbs) : bitLength m ≤ bitLength n :=
  bitLength_le_iff.mpr (Nat.lt_of_le_of_lt h (natAbs_lt_two_pow n))

theorem bitLength_neg (n : Int) : bitLength (-n) = bitLength n := by
  simp [bitLength]

theorem bitLength_mul_le (m n : Int) : bitLength (m * n) ≤ bitLength m + bitLength n := by
  rw [bitLength_le_iff, Int.natAbs_mul, Nat.pow_add]
  exact Nat.mul_lt_mul'' (natAbs_lt_two_pow m) (natAbs_lt_two_pow n)

theorem bitLength_tdiv_le (m n : Int) : bitLength (m.tdiv n) ≤ bitLength m := by
  refine bitLength_le_of_natAbs_le ?_
  rw [Int.natAbs_tdiv]
  exact Nat.div_le_self _ _

theorem bitLength_tmod_le (m n : Int) : bitLength (m.tmod n) ≤ bitLength m := by
  refine bitLength_le_of_natAbs_le ?_
  rw [Int.natAbs_tmod]
  exact Nat.mod_le _ _

theorem bitLength_pow_le (n : Int) {k : Nat} (hk : k ≠ 0) :
    bitLength (Int.pow n k) ≤ bitLength n * k := by
  rw [bitLength_le_iff, Nat.pow_mul]
  change (n ^ k).natAbs < _
  rw [Int.natAbs_pow]
  exact Nat.pow_lt_pow_left (natAbs_lt_two_pow n) hk

theorem bitLength_shiftLeft_le (n : Int) (amount : Nat) :
    bitLength (shiftLeft n amount) ≤ bitLength n + amount := by
  unfold shiftLeft
  rw [bitLength_le_iff, Int.natAbs_mul, Int.natAbs_natCast, Nat.one_shiftLeft, Nat.pow_add]
  exact Nat.mul_lt_mul_of_pos_right (natAbs_lt_two_pow n) (Nat.two_pow_pos amount)

theorem bitLength_shiftRight_le (n : Int) (amount : Nat) :
    bitLength (shiftRight n amount) ≤ bitLength n := by
  refine bitLength_le_of_natAbs_le ?_
  unfold shiftRight
  split
  · split
    next hn => change 1 ≤ n.natAbs; omega
    next => exact Nat.zero_le _
  · rw [Int.shiftRight_eq_div_pow]
    exact Int.natAbs_ediv_le_natAbs _ _

/-- The digits of a number that are no digits of another are among its digits. -/
theorem clearBits_le (m n : Nat) : clearBits m n ≤ m := by
  have hsub : m &&& clearBits m n = clearBits m n := by
    refine Nat.eq_of_testBit_eq fun i => ?_
    simp only [clearBits, Nat.testBit_and, Nat.testBit_xor]
    cases m.testBit i <;> cases n.testBit i <;> rfl
  rw [← hsub]
  exact Nat.and_le_left

/-- The digits that differ from the ones without end to the left, as a number. -/
def significant (n : Int) : Nat :=
  (if n < 0 then bitNot n else n).toNat

@[simp]
theorem significant_ofNat (a : Nat) : significant (.ofNat a) = a := rfl

@[simp]
theorem significant_negSucc (a : Nat) : significant (.negSucc a) = a := by
  unfold significant bitNot
  rw [if_pos (Int.negSucc_lt_zero a)]
  omega

theorem significant_lt (h : bitLength n ≤ w) : significant n < 2 ^ w := by
  rw [bitLength_le_iff] at h
  cases n with
  | ofNat a => exact h
  | negSucc a =>
      rw [significant_negSucc]
      exact Nat.lt_of_succ_lt h

theorem negSucc_eq_bitNot (a : Nat) : Int.negSucc a = bitNot a := by
  unfold bitNot
  omega

/-- De Morgan's law. -/
theorem bitAnd_of_neg (hm : m < 0) (hn : n < 0) :
    bitAnd m n = bitNot (significant m ||| significant n : Nat) := by
  obtain ⟨a, rfl⟩ := Int.eq_negSucc_of_lt_zero hm
  obtain ⟨b, rfl⟩ := Int.eq_negSucc_of_lt_zero hn
  rw [significant_negSucc, significant_negSucc, ← negSucc_eq_bitNot]
  rfl

theorem bitXor_eq (m n : Int) :
    bitXor m n = if m < 0 ↔ n < 0 then ((significant m ^^^ significant n : Nat) : Int)
      else bitNot (significant m ^^^ significant n : Nat) := by
  have hofNat (a : Nat) : ¬ Int.ofNat a < 0 := Int.not_lt.mpr (Int.natCast_nonneg a)
  cases m with
  | ofNat a =>
      cases n with
      | ofNat b => simp only [hofNat, if_true]; rfl
      | negSucc b =>
          simp only [hofNat, Int.negSucc_lt_zero, false_iff, not_true, if_false]
          rw [significant_negSucc, ← negSucc_eq_bitNot]
          rfl
  | negSucc a =>
      cases n with
      | ofNat b =>
          simp only [hofNat, Int.negSucc_lt_zero, iff_false, not_true, if_false]
          rw [significant_negSucc, ← negSucc_eq_bitNot]
          rfl
      | negSucc b =>
          simp only [Int.negSucc_lt_zero, if_true]
          rw [significant_negSucc, significant_negSucc]
          rfl

theorem bitLength_bitAnd_le (hm : bitLength m ≤ w) (hn : bitLength n ≤ w)
    (h : 0 ≤ m ∨ 0 ≤ n) : bitLength (bitAnd m n) ≤ w := by
  cases m with
  | ofNat a =>
      refine Nat.le_trans (bitLength_le_of_natAbs_le ?_) hm
      cases n with
      | ofNat b => exact Nat.and_le_left
      | negSucc b => exact clearBits_le a b
  | negSucc a =>
      refine Nat.le_trans (bitLength_le_of_natAbs_le ?_) hn
      cases n with
      | ofNat b => exact clearBits_le b a
      | negSucc b => omega

theorem bitLength_bitOr_le (hm : bitLength m ≤ w) (hn : bitLength n ≤ w) :
    bitLength (bitOr m n) ≤ w := by
  cases m with
  | ofNat a =>
      cases n with
      | ofNat b =>
          rw [bitLength_le_iff] at hm hn ⊢
          exact Nat.or_lt_two_pow hm hn
      | negSucc b =>
          refine Nat.le_trans (bitLength_le_of_natAbs_le ?_) hn
          exact Nat.succ_le_succ (clearBits_le b a)
  | negSucc a =>
      refine Nat.le_trans (bitLength_le_of_natAbs_le ?_) hm
      cases n with
      | ofNat b => exact Nat.succ_le_succ (clearBits_le a b)
      | negSucc b => exact Nat.succ_le_succ Nat.and_le_left

end Number

/-! ## The widths that an operation needs -/

/-- The integer is at most one digit wider than `width`, and it is wider exactly if `beyond` is
so. -/
structure Widens (width : Nat) (n : Int) (beyond : Prop) : Prop where
  le_succ : Number.bitLength n ≤ width + 1
  le_iff : Number.bitLength n ≤ width ↔ ¬ beyond

namespace Widens

open Number

variable {w : Nat} {m n : Int}

theorem of_le (h : bitLength n ≤ w) : Widens w n False :=
  ⟨Nat.le_succ_of_le h, by simpa using h⟩

theorem congr {beyond beyond' : Prop} (h : Widens w n beyond) (hiff : beyond ↔ beyond') :
    Widens w n beyond' :=
  propext hiff ▸ h

/-- In terms of magnitudes. -/
theorem of_natAbs {beyond : Prop} (hle : n.natAbs < 2 * 2 ^ w) (hiff : 2 ^ w ≤ n.natAbs ↔ beyond) :
    Widens w n beyond := by
  refine ⟨?_, ?_⟩
  · rw [bitLength_le_iff, Nat.pow_succ]
    omega
  · rw [bitLength_le_iff, ← hiff, Nat.not_le]

theorem add (hm : bitLength m ≤ w) (hn : bitLength n ≤ w) :
    Widens w (m + n) ((0 ≤ m ↔ 0 ≤ n) ∧ 2 ^ w ≤ m.natAbs + n.natAbs) := by
  rw [bitLength_le_iff] at hm hn
  exact of_natAbs (by omega) (by omega)

theorem sub (hm : bitLength m ≤ w) (hn : bitLength n ≤ w) :
    Widens w (m - n) ((0 ≤ m ↔ n < 0) ∧ 2 ^ w ≤ m.natAbs + n.natAbs) := by
  rw [bitLength_le_iff] at hm hn
  exact of_natAbs (by omega) (by omega)

theorem bitNot (hn : bitLength n ≤ w) : Widens w (Number.bitNot n) (n + 1 = (2 ^ w : Nat)) := by
  rw [bitLength_le_iff] at hn
  unfold Number.bitNot
  exact of_natAbs (by omega) (by omega)

theorem succ (hn : bitLength n ≤ w) : Widens w (n + 1) (n + 1 = (2 ^ w : Nat)) := by
  rw [bitLength_le_iff] at hn
  exact of_natAbs (by omega) (by omega)

theorem pred (hn : bitLength n ≤ w) : Widens w (n - 1) (1 - n = (2 ^ w : Nat)) := by
  rw [bitLength_le_iff] at hn
  exact of_natAbs (by omega) (by omega)

theorem bitAnd (hm : bitLength m ≤ w) (hn : bitLength n ≤ w) :
    Widens w (Number.bitAnd m n)
      (m < 0 ∧ n < 0 ∧ (significant m ||| significant n) + 1 = 2 ^ w) := by
  by_cases hneg : m < 0 ∧ n < 0
  · rw [bitAnd_of_neg hneg.1 hneg.2]
    refine (bitNot ?_).congr (by simp only [hneg, true_and]; omega)
    rw [bitLength_le_iff]
    exact Nat.or_lt_two_pow (significant_lt hm) (significant_lt hn)
  · exact (of_le (bitLength_bitAnd_le hm hn (by omega))).congr (by simp only [false_iff]; omega)

theorem bitXor (hm : bitLength m ≤ w) (hn : bitLength n ≤ w) :
    Widens w (Number.bitXor m n)
      (¬ (m < 0 ↔ n < 0) ∧ (significant m ^^^ significant n) + 1 = 2 ^ w) := by
  have hdigits : bitLength (significant m ^^^ significant n : Nat) ≤ w := by
    rw [bitLength_le_iff]
    exact Nat.xor_lt_two_pow (significant_lt hm) (significant_lt hn)
  rw [bitXor_eq]
  split
  next hsigns => exact (of_le hdigits).congr (by simp only [hsigns, not_true, false_and])
  next hsigns =>
    exact (bitNot hdigits).congr (by simp only [hsigns, not_false_iff, true_and]; omega)

end Widens

/-! ## Operators that ask for the width -/

theorem Limit.checkBits_eq (bits : Nat) :
    checkBits bits = if bits ≤ bigintBits then .ok () else .error .bigintSize := by
  unfold checkBits
  by_cases hbits : bits ≤ bigintBits
  · rw [if_pos hbits, if_neg (Nat.not_lt.mpr hbits)]
  · rw [if_neg hbits, if_pos (Nat.not_le.mp hbits)]

namespace Value

open Number

variable {op : StrictOp} {a b n : Int}

theorem bitLength_le_of_checkBits {bits : Nat} {m : Int} (hm : bitLength m ≤ bits)
    (h : (do Limit.checkBits bits; pure m : Except Cause Int) = .ok n) :
    bitLength n ≤ Limit.bigintBits := by
  rw [Limit.checkBits_eq] at h
  split at h
  next hbits =>
    cases h
    exact Nat.le_trans hm hbits
  next => cases h

/-- A power of an integer whose width is asked for, or one of zero, one or minus one. -/
theorem bitLength_le_of_bigintPower (ha : bitLength a ≤ Limit.bigintBits)
    (h : bigintPower a b = .ok n) : bitLength n ≤ Limit.bigintBits := by
  have hunit : bitLength 1 ≤ Limit.bigintBits := by decide
  unfold bigintPower at h
  split at h
  · cases h
  split at h
  · cases h
  dsimp only at h
  by_cases hwide : bitLength a > 1
  · rw [if_pos hwide] at h
    by_cases hexponent : b.toNat = 0
    · rw [hexponent] at h
      cases h
      change bitLength (a ^ 0) ≤ _
      rw [Int.pow_zero]
      exact hunit
    · exact bitLength_le_of_checkBits (bitLength_pow_le a hexponent) h
  · rw [if_neg hwide] at h
    have hone : n = 1 ∨ n = -1 ∨ n = a := by
      split at h
      · cases h
        split
        · exact .inl rfl
        · exact .inr (.inl rfl)
      · cases h
        split
        · exact .inl rfl
        · exact .inr (.inr rfl)
    rcases hone with rfl | rfl | rfl
    · exact hunit
    · rw [bitLength_neg]
      exact hunit
    · exact ha

/-- Only sums and differences can be beyond the limit. -/
theorem bitLength_le_of_bigintArithmetic (hadd : op ≠ .add) (hsub : op ≠ .sub)
    (ha : bitLength a ≤ Limit.bigintBits) (h : bigintArithmetic op a b = .ok n) :
    bitLength n ≤ Limit.bigintBits := by
  unfold bigintArithmetic at h
  split at h
  case h_1 => exact absurd rfl hadd
  case h_2 => exact absurd rfl hsub
  case h_3 => exact bitLength_le_of_checkBits (bitLength_mul_le a b) h
  case h_4 =>
    split at h
    · cases h
    · cases h
      exact Nat.le_trans (bitLength_tdiv_le a b) ha
  case h_5 =>
    split at h
    · cases h
    · cases h
      exact Nat.le_trans (bitLength_tmod_le a b) ha
  case h_6 => exact bitLength_le_of_bigintPower ha h

/-- Only the conjunction and the exclusive disjunction can be beyond the limit. -/
theorem bitLength_le_of_bigintBitwise (hand : op ≠ .bitAnd) (hxor : op ≠ .bitXor)
    (ha : bitLength a ≤ Limit.bigintBits) (hb : bitLength b ≤ Limit.bigintBits)
    (h : bigintBitwise op a b = .ok n) : bitLength n ≤ Limit.bigintBits := by
  unfold bigintBitwise at h
  split at h
  case h_1 => exact absurd rfl hand
  case h_2 =>
    cases h
    exact bitLength_bitOr_le ha hb
  case h_3 => exact absurd rfl hxor
  case h_4 =>
    cases hamount : shiftAmount b with
    | error cause =>
        rw [hamount] at h
        cases h
    | ok amount =>
        rw [hamount] at h
        exact bitLength_le_of_checkBits (bitLength_shiftLeft_le a amount) h
  case h_5 =>
    cases hamount : shiftAmount b with
    | error cause =>
        rw [hamount] at h
        cases h
    | ok amount =>
        rw [hamount] at h
        cases h
        exact Nat.le_trans (bitLength_shiftRight_le a amount) ha

theorem shiftAmount_natCast {amount : Nat} (h : amount < 1 <<< 64) :
    shiftAmount amount = .ok amount := by
  unfold shiftAmount
  rw [if_neg, Int.toNat_natCast]
  simp only [Bool.or_eq_true, decide_eq_true_eq, not_or]
  omega

theorem binary_shiftLeft (heap : Heap) {amount : Nat} (h : amount < 1 <<< 64)
    (hbits : bitLength a + amount ≤ Limit.bigintBits) :
    binary heap .shiftLeft (.bigint a) (.bigint amount) =
      .ok (.bigint (shiftLeft a amount)) := by
  change Value.bigint <$> bigintBitwise .shiftLeft a amount = _
  unfold bigintBitwise
  dsimp only
  rw [shiftAmount_natCast h]
  change Value.bigint <$> (do Limit.checkBits (bitLength a + amount); _) = _
  rw [Limit.checkBits_eq, if_pos hbits]
  rfl

end Value

/-! ## Operations on integers -/

/-- An operation on integers of unlimited size, with its operands. -/
inductive IntegerOperation where
  /-- An operator between two integers. -/
  | binary (op : StrictOp) (a b : Int)
  | negate (a : Int)
  | bitNot (a : Int)
  /-- One more or one less, in the place of an integer. -/
  | update (op : UpdateOp) (a : Int)

namespace IntegerOperation

/-- What the operation returns; an update both stores a value and answers with one. -/
def values (heap : Heap) : IntegerOperation → Except Cause (List Value)
  | binary op a b => (fun value => [value]) <$> Value.binary heap op (.bigint a) (.bigint b)
  | negate a => .ok [Value.negate heap (.bigint a)]
  | bitNot a => .ok [Value.bitNot heap (.bigint a)]
  | update op a =>
    let (stored, answer) := updated op heap (.bigint a)
    .ok [stored, answer]

/-- The operands are at most so many digits wide. -/
def Within (width : Nat) : IntegerOperation → Prop
  | binary _ a b => Number.bitLength a ≤ width ∧ Number.bitLength b ≤ width
  | negate a | bitNot a | update _ a => Number.bitLength a ≤ width

/-- Whatever integer the operation returns is within the limit. -/
def RespectsLimit (heap : Heap) (operation : IntegerOperation) : Prop :=
  ∀ values, operation.values heap = .ok values → ∀ n, Value.bigint n ∈ values →
    Number.bitLength n ≤ Limit.bigintBits

/-- The operands reach so far up to the width that the result is beyond it. -/
def Overflows (width : Nat) : IntegerOperation → Prop
  | binary .add a b => (0 ≤ a ↔ 0 ≤ b) ∧ 2 ^ width ≤ a.natAbs + b.natAbs
  | binary .sub a b => (0 ≤ a ↔ b < 0) ∧ 2 ^ width ≤ a.natAbs + b.natAbs
  | binary .bitAnd a b =>
    a < 0 ∧ b < 0 ∧ (Number.significant a ||| Number.significant b) + 1 = 2 ^ width
  | binary .bitXor a b =>
    ¬ (a < 0 ↔ b < 0) ∧ (Number.significant a ^^^ Number.significant b) + 1 = 2 ^ width
  | bitNot a | update .incrementBefore a | update .incrementAfter a => a + 1 = (2 ^ width : Nat)
  | update .decrementBefore a | update .decrementAfter a => 1 - a = (2 ^ width : Nat)
  | _ => False

variable {heap : Heap} {operation : IntegerOperation} {op : StrictOp} {a b n : Int}

/-- The integers among the values are at most one digit beyond the limit, and all of them are
within it exactly if `beyond` is not so. -/
structure Widths (values : List Value) (beyond : Prop) : Prop where
  le_succ : ∀ n, Value.bigint n ∈ values → Number.bitLength n ≤ Limit.bigintBits + 1
  le_iff : (∀ n, Value.bigint n ∈ values → Number.bitLength n ≤ Limit.bigintBits) ↔ ¬ beyond

namespace Widths

variable {values : List Value} {beyond : Prop}

theorem of_le (h : ∀ n, Value.bigint n ∈ values → Number.bitLength n ≤ Limit.bigintBits) :
    Widths values False :=
  ⟨fun n hn => Nat.le_succ_of_le (h n hn), by simpa using h⟩

/-- One of the integers decides, the others are operands. -/
theorem of_widens (h : Widens Limit.bigintBits n beyond) (hmem : Value.bigint n ∈ values)
    (hothers : ∀ k, Value.bigint k ∈ values → k = n ∨ Number.bitLength k ≤ Limit.bigintBits) :
    Widths values beyond := by
  refine ⟨fun k hk => ?_, fun hall => h.le_iff.mp (hall n hmem), fun hover k hk => ?_⟩
  · rcases hothers k hk with rfl | hle
    · exact h.le_succ
    · exact Nat.le_succ_of_le hle
  · rcases hothers k hk with rfl | hle
    · exact h.le_iff.mpr hover
    · exact hle

theorem single (h : Widens Limit.bigintBits n beyond) : Widths [.bigint n] beyond := by
  refine of_widens h (List.mem_singleton_self _) fun k hk => ?_
  cases List.mem_singleton.mp hk
  exact .inl rfl

end Widths

theorem widths_of_map {x : Except Cause Int} {values : List Value}
    (hx : ∀ n, x = .ok n → Number.bitLength n ≤ Limit.bigintBits)
    (h : (fun value => [value]) <$> (Value.bigint <$> x) = .ok values) : Widths values False := by
  cases x with
  | error cause => cases h
  | ok n =>
      cases h
      refine .of_le fun k hk => ?_
      cases List.mem_singleton.mp hk
      exact hx n rfl

theorem widths_of_bool {answer : Bool} : Widths [.bool answer] False :=
  .of_le fun k hk => by cases List.mem_singleton.mp hk

/-- What an operator returns for two integers. -/
theorem widths_binary (ha : Number.bitLength a ≤ Limit.bigintBits)
    (hb : Number.bitLength b ≤ Limit.bigintBits) {values : List Value}
    (h : (binary op a b).values heap = .ok values) :
    Widths values ((binary op a b).Overflows Limit.bigintBits) := by
  cases op with
  | add =>
      cases h
      exact .single (.add ha hb)
  | sub =>
      cases h
      exact .single (.sub ha hb)
  | bitAnd =>
      cases h
      exact .single (.bitAnd ha hb)
  | bitXor =>
      cases h
      exact .single (.bitXor ha hb)
  | mul | div | mod | pow =>
      exact widths_of_map
        (fun n => Value.bitLength_le_of_bigintArithmetic (by simp) (by simp) ha) h
  | bitOr | shiftLeft | shiftRight =>
      exact widths_of_map
        (fun n => Value.bitLength_le_of_bigintBitwise (by simp) (by simp) ha hb) h
  | equal | notEqual | strictEqual | strictNotEqual | less | lessEqual | greater | greaterEqual =>
      cases h
      exact widths_of_bool

theorem widths_values (hwithin : operation.Within Limit.bigintBits) {values : List Value}
    (h : operation.values heap = .ok values) :
    Widths values (operation.Overflows Limit.bigintBits) := by
  cases operation with
  | binary op a b => exact widths_binary hwithin.1 hwithin.2 h
  | negate a =>
      cases h
      refine .of_le fun k hk => ?_
      cases List.mem_singleton.mp hk
      rw [Number.bitLength_neg]
      exact hwithin
  | bitNot a =>
      cases h
      exact .single (.bitNot hwithin)
  | update op a =>
      have hothers {m k : Int} {answer : Value} (hk : Value.bigint k ∈ [.bigint m, answer])
          (hanswer : answer = .bigint m ∨ answer = .bigint a) :
          k = m ∨ Number.bitLength k ≤ Limit.bigintBits := by
        simp only [List.mem_cons, List.not_mem_nil, or_false, Value.bigint.injEq] at hk
        rcases hk with rfl | hk
        · exact .inl rfl
        rcases hanswer with rfl | rfl
        · cases hk
          exact .inl rfl
        · cases hk
          exact .inr hwithin
      cases op with
      | incrementBefore =>
          cases h
          exact .of_widens (.succ hwithin) List.mem_cons_self fun k hk => hothers hk (.inl rfl)
      | incrementAfter =>
          cases h
          exact .of_widens (.succ hwithin) List.mem_cons_self fun k hk => hothers hk (.inr rfl)
      | decrementBefore =>
          cases h
          exact .of_widens (.pred hwithin) List.mem_cons_self fun k hk => hothers hk (.inl rfl)
      | decrementAfter =>
          cases h
          exact .of_widens (.pred hwithin) List.mem_cons_self fun k hk => hothers hk (.inr rfl)

/-- The operations that can go beyond the limit refuse nothing. -/
theorem exists_values (heap : Heap) (h : operation.Overflows Limit.bigintBits) :
    ∃ values, operation.values heap = .ok values := by
  cases operation with
  | binary op a b =>
      cases op with
      | add | sub | bitAnd | bitXor => exact ⟨_, rfl⟩
      | _ => exact h.elim
  | negate a => exact ⟨_, rfl⟩
  | bitNot a => exact ⟨_, rfl⟩
  | update op a => exact ⟨_, rfl⟩

/-- For operands within the limit an operation returns nothing beyond it, exactly if they do not
reach up to the limit in one of the ways of `Overflows`. What it returns is never more than one
digit beyond. -/
theorem respectsLimit_iff (heap : Heap) (h : operation.Within Limit.bigintBits) :
    (operation.RespectsLimit heap ↔ ¬ operation.Overflows Limit.bigintBits) ∧
      ∀ values, operation.values heap = .ok values → ∀ n, Value.bigint n ∈ values →
        Number.bitLength n ≤ Limit.bigintBits + 1 := by
  refine ⟨⟨fun hrespects hover => ?_, fun hover values hvalues => ?_⟩, fun values hvalues => ?_⟩
  · obtain ⟨values, hvalues⟩ := exists_values heap hover
    exact (widths_values h hvalues).le_iff.mp (hrespects values hvalues) hover
  · exact (widths_values h hvalues).le_iff.mpr hover
  · exact (widths_values h hvalues).le_succ

/-- Half of the first integer beyond the limit. -/
def half : Int :=
  Number.shiftLeft 1 (Limit.bigintBits - 1)

theorem natAbs_half : half.natAbs = 2 ^ (Limit.bigintBits - 1) := by
  rw [half, Number.shiftLeft, Int.one_mul, Int.natAbs_natCast, Nat.one_shiftLeft]

theorem half_pos : 0 < half := by
  rw [half, Number.shiftLeft, Int.one_mul, Nat.one_shiftLeft, Int.natCast_pos]
  exact Nat.two_pow_pos _

theorem natAbs_half_add : half.natAbs + half.natAbs = 2 ^ Limit.bigintBits := by
  have hpos : 1 ≤ Limit.bigintBits := by decide
  rw [natAbs_half, ← Nat.two_mul, ← Nat.pow_succ', Nat.succ_eq_add_one, Nat.sub_add_cancel hpos]

theorem within_half : Number.bitLength half ≤ Limit.bigintBits := by
  rw [Number.bitLength_le_iff, natAbs_half]
  exact Nat.pow_lt_pow_right Nat.one_lt_two (by decide)

/-- The difference of one half and the other with the sign changed. -/
theorem respectsLimit_iff_half : (binary .sub half (-half)).Within Limit.bigintBits ∧
    ¬ (binary .sub half (-half)).RespectsLimit .empty ∧
    ∀ values, (binary .sub half (-half)).values .empty = .ok values →
      ∀ n, Value.bigint n ∈ values → Number.bitLength n ≤ Limit.bigintBits + 1 := by
  have hwithin : (binary .sub half (-half)).Within Limit.bigintBits :=
    ⟨within_half, (Number.bitLength_neg half).symm ▸ within_half⟩
  have hover : (binary .sub half (-half)).Overflows Limit.bigintBits := by
    refine ⟨?_, ?_⟩
    · rw [Int.neg_neg_iff_pos]
      exact ⟨fun _ => half_pos, fun h => Int.le_of_lt h⟩
    · exact Nat.le_of_eq (by rw [Int.natAbs_neg, natAbs_half_add])
  obtain ⟨hiff, hsucc⟩ := respectsLimit_iff .empty hwithin
  exact ⟨hwithin, fun hrespects => hiff.mp hrespects hover, hsucc⟩

/-- A sum that is beyond the limit. Its operands are made by a shift, and are within it. -/
theorem not_respectsLimit_doubled :
    Value.binary .empty .shiftLeft (.bigint 1) (.bigint (Limit.bigintBits - 1 : Nat)) =
        .ok (.bigint half) ∧
      (binary .add half half).Within Limit.bigintBits ∧
      ¬ (binary .add half half).RespectsLimit .empty := by
  refine ⟨?_, ⟨within_half, within_half⟩, fun hrespects => ?_⟩
  · exact Value.binary_shiftLeft .empty (by decide) (by decide)
  · have hwidth := hrespects _ rfl (half + half) (List.mem_singleton_self _)
    have hpos := half_pos
    have hsum := natAbs_half_add
    rw [Number.bitLength_le_iff] at hwidth
    omega

end IntegerOperation

end StepTrace
