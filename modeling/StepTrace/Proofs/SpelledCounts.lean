import Mathlib.Algebra.Group.Nat.Defs
import Mathlib.Data.List.Induction
import StepTrace.Number.Shortest
import StepTrace.Proofs.Numerals

/-!
# The texts of counts

Each count has one numeral, with no sign and no needless zero in it. The parser of counts is not as
strict: it also takes a plus sign and any number of zeros in front (`readCount?_eq_some_iff`), so
one count has many texts.

* `Spells`, `SpellsLoosely`: a text as the numeral of a count, or as something that is read as it.
* `ofDecimal_decimal`: the numeral of a count as the numeral of a double.
-/

namespace StepTrace.Number

open Syntax (isDigit_iff)

/-- The text is the numeral of the count. -/
def Spells (text : List Char) (n : Nat) : Prop :=
  text = decimal n

/-- The text is the numeral of the count, with or without a plus sign and zeros in front. -/
def SpellsLoosely (text : List Char) (n : Nat) : Prop :=
  ∃ sign zeros, (sign = [] ∨ sign = ['+']) ∧
    text = sign ++ (List.replicate zeros '0' ++ decimal n)

instance (text : List Char) (n : Nat) : Decidable (Spells text n) :=
  inferInstanceAs (Decidable (_ = _))

variable {text digits : List Char} {n m : Nat}

theorem Spells.loosely (h : Spells text n) : SpellsLoosely text n :=
  ⟨[], 0, Or.inl rfl, h⟩

/-! ## Digits -/

theorem isSome_digitIn?_ten (c : Char) : (digitIn? 10 c).isSome = c.isDigit := by
  unfold digitIn? digitValue?
  by_cases hdigit : c.isDigit
  · have hrange := isDigit_iff.mp hdigit
    simp only [hdigit, if_true, Option.filter_some, decide_eq_true_eq]
    rw [if_pos (by omega)]
    rfl
  · -- a letter is worth ten or more
    have hlower (h : 'a' ≤ c) : 97 ≤ c.toNat := h
    have hupper (h : 'A' ≤ c) : 65 ≤ c.toNat := h
    rw [if_neg hdigit, Bool.eq_false_iff.mpr hdigit]
    split
    · rename_i h
      have := hlower (by simpa using (Bool.and_eq_true_iff.mp h).1)
      simp only [Option.filter_some, decide_eq_true_eq]
      rw [if_neg (by omega)]
      rfl
    · split
      · rename_i h
        have := hupper (by simpa using (Bool.and_eq_true_iff.mp h).1)
        simp only [Option.filter_some, decide_eq_true_eq]
        rw [if_neg (by omega)]
        rfl
      · rfl

theorem digitsValue_append_singleton (digits : List Char) {c : Char} (hc : c.isDigit = true) :
    digitsValue 10 (digits ++ [c]) = 10 * digitsValue 10 digits + (c.toNat - 48) := by
  have hvalue : digitValue? c = some (c.toNat - 48) := if_pos hc
  rw [digitsValue, List.foldl_append, ← digitsValue, List.foldl_cons, List.foldl_nil, hvalue,
    Nat.mul_comm]
  rfl

theorem digitsValue_eq_ofDigitChars (h : ∀ c ∈ digits, c.isDigit = true) :
    digitsValue 10 digits = Nat.ofDigitChars 10 digits 0 := by
  induction digits using List.reverseRecOn with
  | nil => rfl
  | append_singleton digits c ih =>
      rw [digitsValue_append_singleton digits (h c (by simp)), ih fun d hd => h d (by simp [hd]),
        Nat.ofDigitChars_append, Nat.ofDigitChars_cons, Nat.ofDigitChars_nil]
      rfl

theorem isDigit_of_mem_decimal {c : Char} (h : c ∈ decimal n) : c.isDigit = true :=
  Nat.isDigit_of_mem_toDigits (by decide) (by decide) h

theorem isDigit_zeros {zeros : Nat} {c : Char}
    (hc : c ∈ List.replicate zeros '0' ++ decimal n) : c.isDigit = true := by
  rcases List.mem_append.mp hc with hc | hc
  · rw [List.eq_of_mem_replicate hc]
    rfl
  · exact isDigit_of_mem_decimal hc

/-- Zeros in front do not count. -/
theorem digitsValue_zeros (zeros n : Nat) :
    digitsValue 10 (List.replicate zeros '0' ++ decimal n) = n := by
  rw [digitsValue_eq_ofDigitChars fun c => isDigit_zeros, Nat.ofDigitChars_append,
    Nat.ofDigitChars_replicate_zero, Nat.mul_zero]
  exact Nat.ofDigitChars_ten_toDigits

theorem decimal_digit {c : Char} (hc : c.isDigit = true) : decimal (c.toNat - 48) = [c] := by
  have hrange := isDigit_iff.mp hc
  have hlt : c.toNat - 48 < 10 := by omega
  rw [decimal, Nat.toDigits_of_lt_base hlt]
  refine congrArg (· :: []) (Char.toNat_inj.mp ?_)
  rw [Nat.toNat_digitChar_of_lt_ten hlt]
  omega

/-- A digit behind a numeral. -/
theorem decimal_append_digit (hn : 0 < n) {c : Char} (hc : c.isDigit = true) :
    decimal n ++ [c] = decimal (10 * n + (c.toNat - 48)) := by
  have hrange := isDigit_iff.mp hc
  rw [← decimal_digit hc]
  exact Nat.toDigits_append_toDigits (by decide) hn (by omega)

/-- Digits are zeros and a numeral. -/
theorem exists_zeros (hne : digits ≠ []) (h : ∀ c ∈ digits, c.isDigit = true) :
    ∃ zeros, digits = List.replicate zeros '0' ++ decimal (digitsValue 10 digits) := by
  induction digits using List.reverseRecOn with
  | nil => exact absurd rfl hne
  | append_singleton digits c ih =>
      have hc : c.isDigit = true := h c (by simp)
      rw [digitsValue_append_singleton digits hc]
      by_cases hempty : digits = []
      · subst hempty
        have hvalue : digitsValue 10 [] = 0 := rfl
        exact ⟨0, by rw [hvalue, Nat.mul_zero, Nat.zero_add, decimal_digit hc]; rfl⟩
      · obtain ⟨zeros, hzeros⟩ := ih hempty fun d hd => h d (by simp [hd])
        rcases Nat.eq_zero_or_pos (digitsValue 10 digits) with hvalue | hvalue
        · -- the digits are all zeros, and the last one is the numeral
          refine ⟨zeros + 1, ?_⟩
          rw [hvalue] at hzeros
          rw [hvalue, Nat.mul_zero, Nat.zero_add, decimal_digit hc, hzeros, List.replicate_succ']
          rfl
        · refine ⟨zeros, ?_⟩
          rw [← decimal_append_digit hvalue hc, ← List.append_assoc, ← hzeros]

/-! ## Reading -/

/-- The text without a plus sign in front. -/
def unsigned (text : List Char) : List Char :=
  match text with
  | '+' :: rest => rest
  | _ => text

theorem readCount?_ten : readCount? 10 text = some n ↔
    (unsigned text ≠ [] ∧ ∀ c ∈ unsigned text, c.isDigit = true) ∧
      digitsValue 10 (unsigned text) < 2 ^ 64 ∧ digitsValue 10 (unsigned text) = n := by
  have hall : ∀ digits : List Char,
      (! digits.isEmpty && digits.all fun c => (digitIn? 10 c).isSome) = true ↔
        digits ≠ [] ∧ ∀ c ∈ digits, c.isDigit = true := by
    simp [isSome_digitIn?_ten]
  have hread : readCount? 10 text =
      if ! (unsigned text).isEmpty && (unsigned text).all fun c => (digitIn? 10 c).isSome then
        if digitsValue 10 (unsigned text) < 1 <<< 64 then some (digitsValue 10 (unsigned text))
        else none
      else none := rfl
  have hlimit : (1 <<< 64 : Nat) = 2 ^ 64 := rfl
  rw [hread, Option.ite_none_right_eq_some, Option.ite_none_right_eq_some, hall, hlimit,
    Option.some.injEq]

theorem unsigned_eq_iff (hne : digits ≠ []) (h : ∀ c ∈ digits, c.isDigit = true) :
    unsigned text = digits ↔ ∃ sign, (sign = [] ∨ sign = ['+']) ∧ text = sign ++ digits := by
  constructor
  · intro heq
    unfold unsigned at heq
    split at heq
    · exact ⟨['+'], Or.inr rfl, by rw [heq]; rfl⟩
    · exact ⟨[], Or.inl rfl, heq⟩
  · rintro ⟨sign, rfl | rfl, rfl⟩
    · obtain ⟨d, more, rfl⟩ := List.exists_cons_of_ne_nil hne
      have hplus : d ≠ '+' := by
        rintro rfl
        exact absurd (h '+' List.mem_cons_self) (by decide)
      change unsigned (d :: more) = _
      rw [unsigned]
      rintro rest ⟨⟩
      exact hplus rfl
    · rfl

/-- The parser of counts takes the numeral of a count, with or without a plus sign and zeros in
front. -/
theorem readCount?_eq_some_iff :
    readCount? 10 text = some n ↔ n < 2 ^ 64 ∧ SpellsLoosely text n := by
  rw [readCount?_ten]
  constructor
  · rintro ⟨⟨hne, hdigits⟩, hlt, rfl⟩
    obtain ⟨zeros, hzeros⟩ := exists_zeros hne hdigits
    obtain ⟨sign, hsign, htext⟩ := (unsigned_eq_iff hne hdigits).mp rfl
    refine ⟨hlt, sign, zeros, hsign, ?_⟩
    rw [← hzeros, ← htext]
  · rintro ⟨hlt, sign, zeros, hsign, htext⟩
    have hdigits : ∀ c ∈ List.replicate zeros '0' ++ decimal n, c.isDigit = true :=
      fun c => isDigit_zeros
    have hne : List.replicate zeros '0' ++ decimal n ≠ [] := by
      simp [decimal, Nat.toDigits_ne_nil]
    have hunsigned := (unsigned_eq_iff hne hdigits).mpr ⟨sign, hsign, htext⟩
    rw [hunsigned, digitsValue_zeros]
    exact ⟨⟨hne, hdigits⟩, hlt, rfl⟩

/-- The parser takes no other characters than digits and a plus sign. -/
theorem SpellsLoosely.isDigit_or_plus (h : SpellsLoosely text n) {c : Char} (hc : c ∈ text) :
    c = '+' ∨ c.isDigit = true := by
  obtain ⟨sign, zeros, hsign, rfl⟩ := h
  rcases List.mem_append.mp hc with hc | hc
  · rcases hsign with rfl | rfl
    · cases hc
    · exact Or.inl (List.mem_singleton.mp hc)
  · exact Or.inr (isDigit_zeros hc)

/-- A text is read as one count at most. -/
theorem SpellsLoosely.unique (hn : SpellsLoosely text n) (hm : SpellsLoosely text m) : n = m := by
  obtain ⟨sign, zeros, hsign, rfl⟩ := hn
  obtain ⟨sign', zeros', hsign', htext⟩ := hm
  have hne : ∀ zeros n, List.replicate zeros '0' ++ decimal n ≠ [] := by
    simp [decimal, Nat.toDigits_ne_nil]
  have hleft := (unsigned_eq_iff (hne zeros n) fun c => isDigit_zeros).mpr ⟨sign, hsign, rfl⟩
  have hright := (unsigned_eq_iff (hne zeros' m) fun c => isDigit_zeros).mpr ⟨sign', hsign', htext⟩
  have hsame := congrArg (digitsValue 10) (hleft.symm.trans hright)
  rwa [digitsValue_zeros, digitsValue_zeros] at hsame

/-! ## Doubles -/

/-- The numeral of a positive number does not begin with a zero. -/
theorem head?_decimal (hn : 0 < n) : (decimal n).head? ≠ some '0' := by
  intro hhead
  obtain ⟨more, hmore⟩ := List.head?_eq_some_iff.mp hhead
  have hvalue : digitsValue 10 ('0' :: more) = n := hmore ▸ digitsValue_zeros 0 n
  by_cases hne : more = []
  · rw [hne] at hvalue
    exact absurd hvalue (Nat.ne_of_lt hn)
  · have hdigits : ∀ c ∈ more, c.isDigit = true := fun c hc =>
      isDigit_of_mem_decimal (hmore ▸ List.mem_cons_of_mem _ hc)
    have hsame : digitsValue 10 more = n := hvalue
    obtain ⟨zeros, hzeros⟩ := exists_zeros hne hdigits
    have hlength := congrArg List.length hmore
    rw [List.length_cons, hzeros, hsame, List.length_append] at hlength
    omega

theorem length_decimal_le {k : Nat} (hk : 0 < k) (h : n.log2 < 3 * k) (hn : 0 < n) :
    (decimal n).length ≤ k := by
  refine (Nat.length_toDigits_le_iff (by decide) hk).mpr ?_
  calc n < 2 ^ (3 * k) := (Nat.log2_lt (Nat.ne_of_gt hn)).mp h
    _ = 8 ^ k := Nat.pow_mul 2 3 k
    _ ≤ 10 ^ k := Nat.pow_le_pow_left (by decide) k

/-- The numeral of a number is read as the double nearest to it. -/
theorem ofDecimal_decimal (h : n.log2 < 1024) : ofDecimal (decimal n) 0 = ofNat n := by
  rcases Nat.eq_zero_or_pos n with rfl | hn
  · rfl
  · have hdrop : (decimal n).dropWhile (· == '0') = decimal n := by
      cases hdecimal : decimal n with
      | nil => rfl
      | cons c more =>
          have hc : (c == '0') = false := by
            refine beq_eq_false_iff_ne.mpr ?_
            rintro rfl
            exact head?_decimal hn (by rw [hdecimal]; rfl)
          rw [List.dropWhile_cons, hc, if_neg Bool.false_ne_true]
    have hlength : (decimal n).length ≤ 400 :=
      length_decimal_le (by decide) (Nat.lt_trans h (by decide)) hn
    have hvalue : digitsValue 10 (decimal n) = n := digitsValue_zeros 0 n
    have hne : decimal n ≠ [] := Nat.toDigits_ne_nil
    have hsmall : ¬ ((decimal n).isEmpty || ((decimal n).length : Int) + 0 < -400) = true := by
      simp only [Bool.or_eq_true, List.isEmpty_iff, hne, decide_eq_true_eq, false_or]
      omega
    have hgreat : ¬ ((decimal n).length : Int) + 0 > 400 := by omega
    have hfinite : ¬ n.log2 ≥ 1024 := Nat.not_le.mpr h
    rw [ofDecimal, hdrop]
    dsimp only
    rw [if_neg hsmall, if_neg hgreat, if_pos (Int.le_refl 0), hvalue, ofNat, if_neg hfinite]
    rfl

end StepTrace.Number
