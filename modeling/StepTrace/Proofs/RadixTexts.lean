import StepTrace.Eval.Run
import StepTrace.Proofs.ArrayOperations
import StepTrace.Proofs.ExactIntegers
import StepTrace.Proofs.SpelledCounts

/-!
# Integers written in a base

The text of an integer in a base is read back as the integer. The digits come out of repeated
divisions and go into repeated multiplications, so reading them is running the divisions backwards
(`digitsValue_radixDigitsBefore`). The reader takes nothing else out of the text: a digit is no
blank and no sign, the mark of hexadecimal digits is none of them, and the reader's arithmetic stays
where it is exact (`horner_eq`).

* `toString_parseInt`: the way there and back.
* `radixText_eq`: the text, with base ten as one of the bases.
-/

namespace StepTrace.Builtin

open Syntax (Location)
open Number (StandsFor digitIn? digitsValue)

variable {base n d : Nat} {digits : List Char} {c : Char}

/-! ## Digits -/

theorem digitValue?_digitChar (hd : d < 36) : Number.digitValue? (digitChar d) = some d := by
  have hall : ∀ d < 36, Number.digitValue? (digitChar d) = some d := by decide
  exact hall d hd

/-- The character is the digit of a number below the base. -/
def IsDigitOf (base : Nat) (c : Char) : Prop :=
  ∃ d < base, c = digitChar d

/-- How the number grows with a digit behind it. -/
def withDigit (base n : Nat) (c : Char) : Nat :=
  n * base + (Number.digitValue? c).getD 0

theorem digitsValue_eq : digitsValue base digits = digits.foldl (withDigit base) 0 := rfl

theorem withDigit_digitChar (hd : d < 36) : withDigit base n (digitChar d) = n * base + d := by
  rw [withDigit, digitValue?_digitChar hd, Option.getD_some]

namespace IsDigitOf

variable (h : IsDigitOf base c) (hbase : base ≤ 36)

include h hbase

theorem isSome : (digitIn? base c).isSome = true := by
  obtain ⟨d, hd, rfl⟩ := h
  rw [digitIn?, digitValue?_digitChar (by omega), Option.filter_some, if_pos (by simpa using hd)]
  rfl

theorem not_isBlank : Text.isBlank c = false := by
  have hall : ∀ d < 36, Text.isBlank (digitChar d) = false := by decide
  obtain ⟨d, hd, rfl⟩ := h
  exact hall d (by omega)

theorem ne_of_all {mark : Char} (hall : ∀ d < 36, digitChar d ≠ mark) : c ≠ mark := by
  obtain ⟨d, hd, rfl⟩ := h
  exact hall d (by omega)

end IsDigitOf

/-! ## Writing -/

theorem radixDigits_ne_nil (base n : Nat) : radixDigits base n ≠ [] := by
  have hbefore (digits : List Char) : radixDigitsBefore base n digits ≠ [] := by
    fun_induction radixDigitsBefore base n digits with
    | case1 n digits h => exact List.cons_ne_nil _ _
    | case2 n digits h hless ih => exact ih
  exact hbefore []

section Writing

variable (hbase : 2 ≤ base) (hbase' : base ≤ 36)

include hbase

theorem isDigitOf_of_mem (hc : c ∈ radixDigitsBefore base n digits) :
    IsDigitOf base c ∨ c ∈ digits := by
  fun_induction radixDigitsBefore base n digits with
  | case1 n digits h =>
      have hlt : n < base := h.resolve_right (by omega)
      exact (List.mem_cons.mp hc).imp_left fun hsame => ⟨n, hlt, hsame⟩
  | case2 n digits h hless ih =>
      have hlt : n % base < base := Nat.mod_lt n (by omega)
      rcases ih hc with hdigit | hmem
      · exact Or.inl hdigit
      · exact (List.mem_cons.mp hmem).imp_left fun hsame => ⟨_, hlt, hsame⟩

include hbase'

/-- Only zero is written with a zero in front. -/
theorem head?_radixDigitsBefore (hn : 0 < n) :
    (radixDigitsBefore base n digits).head? ≠ some '0' := by
  fun_induction radixDigitsBefore base n digits with
  | case1 n digits h =>
      have hvalue := digitValue?_digitChar (d := n) (by omega)
      rw [List.head?_cons]
      intro hzero
      rw [Option.some.inj hzero] at hvalue
      exact absurd (Option.some.inj hvalue) (Nat.ne_of_lt hn)
  | case2 n digits h hless ih => exact ih (Nat.div_pos (by omega) (by omega))

/-- Reading what was written is reading on from the number. -/
theorem digitsValue_radixDigitsBefore :
    digitsValue base (radixDigitsBefore base n digits) = digits.foldl (withDigit base) n := by
  fun_induction radixDigitsBefore base n digits with
  | case1 n digits h =>
      rw [digitsValue_eq, List.foldl_cons, withDigit_digitChar (by omega), Nat.zero_mul,
        Nat.zero_add]
  | case2 n digits h hless ih =>
      have hlt : n % base < base := Nat.mod_lt n (by omega)
      rw [ih, List.foldl_cons, withDigit_digitChar (by omega), Nat.div_add_mod']

end Writing

/-- In base ten the digits are those of the numeral. -/
theorem radixDigitsBefore_ten (n : Nat) (digits : List Char) :
    radixDigitsBefore 10 n digits = Number.decimal n ++ digits := by
  have hchar : ∀ d < 10, Nat.digitChar d = digitChar d := by decide
  fun_induction radixDigitsBefore 10 n digits with
  | case1 n digits h =>
      have hlt : n < 10 := h.resolve_right (by decide)
      rw [Number.decimal, Nat.toDigits_of_lt_base hlt, hchar n hlt]
      rfl
  | case2 n digits h hless ih =>
      have hlt : n % 10 < 10 := Nat.mod_lt n (by decide)
      have hpos : 0 < n / 10 := Nat.div_pos (by omega) (by decide)
      have hdigits : Nat.toDigits 10 (n / 10) ++ Nat.toDigits 10 (n % 10) = Nat.toDigits 10 n := by
        rw [Nat.toDigits_append_toDigits (by decide) hpos hlt, Nat.div_add_mod]
      rw [ih, Number.decimal, Number.decimal, ← hdigits, Nat.toDigits_of_lt_base hlt, hchar _ hlt,
        List.append_assoc]
      rfl

/-! ## Reading -/

/-- What reading digit after digit comes to in doubles. -/
def horner (base : Nat) (digits : List Char) : Float :=
  digits.foldl (fun x c =>
    x * Number.ofNat base + Number.ofNat ((Number.digitValue? c).getD 0)) 0

theorem le_foldl_withDigit (hbase : 0 < base) (n : Nat) (digits : List Char) :
    n ≤ digits.foldl (withDigit base) n := by
  induction digits generalizing n with
  | nil => exact Nat.le_refl n
  | cons c digits ih =>
      calc n ≤ n * base := Nat.le_mul_of_pos_right n hbase
        _ ≤ withDigit base n c := Nat.le_add_right _ _
        _ ≤ (c :: digits).foldl (withDigit base) n := ih _

/-- The digits in front stand for no greater number. -/
theorem digitsValue_le_append (hbase : 0 < base) (front back : List Char) :
    digitsValue base front ≤ digitsValue base (front ++ back) := by
  rw [digitsValue_eq, digitsValue_eq, List.foldl_append]
  exact le_foldl_withDigit hbase _ back

/-- The doubles do not round as long as the number is exact. -/
theorem horner_eq (hbase : 0 < base) (h : base < 2 ^ 53)
    (hvalue : digitsValue base digits < 2 ^ 53) :
    horner base digits = Number.ofNat (digitsValue base digits) := by
  induction digits using List.reverseRecOn with
  | nil => rfl
  | append_singleton front c ih =>
      have hsum : digitsValue base (front ++ [c]) =
          digitsValue base front * base + (Number.digitValue? c).getD 0 := by
        rw [digitsValue_eq, List.foldl_append]
        rfl
      have hle := digitsValue_le_append hbase front [c]
      have hfront := ih (Nat.lt_of_le_of_lt hle hvalue)
      have hstep : horner base (front ++ [c]) = horner base front * Number.ofNat base +
          Number.ofNat ((Number.digitValue? c).getD 0) := by
        rw [horner, List.foldl_append]
        rfl
      rw [hsum] at hvalue hle
      rw [hstep, hfront, hsum, Number.ofNat_mul (by omega) h (by omega),
        Number.ofNat_add (by omega) (by omega) hvalue]

/-- Reading is going on from digit to digit in doubles, also where it is done at once. -/
theorem ofDigits_eq_horner (hbase : 0 < base) (h : base < 2 ^ 53) (digits : List Char) :
    ofDigits base digits = horner base digits := by
  rw [ofDigits]
  split
  · next hsafe => rw [horner_eq hbase h (Number.safe_iff.mp hsafe)]
  · rfl

section Digits

variable (hbase : 2 ≤ base) (hbase' : base ≤ 36) (hdigits : ∀ c ∈ digits, IsDigitOf base c)

include hbase hbase' hdigits

/-- No digits are taken for the mark of hexadecimal ones. -/
theorem hexMark_digits : hexMark base digits = (base, digits) := by
  unfold hexMark
  split
  · next rest =>
      have hx : base ≠ 16 := by
        rintro rfl
        have hmark : IsDigitOf 16 'x' := hdigits 'x' (by simp)
        exact absurd (hmark.isSome (by decide)) (by decide)
      rw [if_neg (by simp [hx]; omega)]
  · next rest =>
      have hmark : IsDigitOf base 'X' := hdigits 'X' (by simp)
      exact absurd rfl (hmark.ne_of_all hbase' (by decide))
  · rfl

theorem parseInt_of_splitSign {text : List Char} {negative : Bool} (hne : digits ≠ [])
    (hsplit : Number.splitSign (Text.trimStart text) = (negative, digits)) :
    parseInt text base = if negative then -ofDigits base digits else ofDigits base digits := by
  have htake : digits.takeWhile (fun c => (digitIn? base c).isSome) = digits :=
    List.takeWhile_eq_self_iff.mpr fun c hc => (hdigits c hc).isSome hbase'
  have hzero : ¬ base = 0 := by omega
  have hrange : ¬ (base < 2 || base > 36) = true := by
    simp only [Bool.or_eq_true, decide_eq_true_eq]
    omega
  rw [parseInt, hsplit]
  dsimp only
  rw [hexMark_digits hbase hbase' hdigits]
  dsimp only
  rw [if_neg hzero, if_neg hrange, htake, if_neg (by simpa using hne)]

end Digits

/-! ## Integers -/

/-- The digits of an integer in a base, a negative one with a minus sign. -/
def integerText (base : Nat) (n : Int) : List Char :=
  if n < 0 then '-' :: radixDigits base n.natAbs else radixDigits base n.natAbs

section Integers

variable {x : Float} {n : Int} (hbase : 2 ≤ base) (hbase' : base ≤ 36)

theorem intText_eq (n : Int) : Number.intText n = integerText 10 n := by
  have hdigits : radixDigits 10 n.natAbs = Number.decimal n.natAbs := by
    rw [radixDigits, radixDigitsBefore_ten, List.append_nil]
  rw [Number.intText, integerText, hdigits]

/-- The text that a program prints for an integer. -/
theorem scriptText_eq (h : StandsFor x n) :
    Number.scriptText x = String.ofList (integerText 10 n) := by
  obtain ⟨d, hd, hwhole, -, hint, hzero⟩ := h.parts
  rw [Number.scriptText, hd, ← intText_eq]
  dsimp only
  by_cases hn : n = 0
  · rw [if_pos (hzero.mpr hn), hn]
    rfl
  · rw [if_neg (mt hzero.mp hn), if_neg (h.not_extreme hn), if_pos hwhole, hint]

theorem radixText_eq (base : Nat) (h : StandsFor x n) :
    radixText base x = String.ofList (integerText base n) := by
  obtain ⟨d, hd, hwhole, habs, hint, -⟩ := h.parts
  rw [radixText, hd]
  dsimp only
  by_cases hten : base = 10
  · rw [if_pos (by simp [hten]), hten, scriptText_eq h]
  · have hsafe : ¬ d.whole > Limit.safeInteger := by
      rw [habs]
      exact Nat.not_lt.mpr (Number.safe_iff.mpr h.natAbs_lt)
    rw [if_neg (by simp [hten, hwhole, hsafe]), habs, hint, integerText]

include hbase

theorem isDigitOf_of_mem_radixDigits {k : Nat} (hc : c ∈ radixDigits base k) :
    IsDigitOf base c :=
  (isDigitOf_of_mem hbase hc).resolve_right List.not_mem_nil

include hbase'

theorem splitSign_integerText (n : Int) :
    Number.splitSign (Text.trimStart (integerText base n)) =
      (decide (n < 0), radixDigits base n.natAbs) := by
  by_cases hneg : n < 0
  · rw [integerText, if_pos hneg, decide_eq_true hneg]
    rfl
  · obtain ⟨c, more, hcons⟩ := List.exists_cons_of_ne_nil (radixDigits_ne_nil base n.natAbs)
    have hc : IsDigitOf base c :=
      isDigitOf_of_mem_radixDigits hbase (k := n.natAbs) (hcons ▸ List.mem_cons_self)
    have hblank := hc.not_isBlank hbase'
    have hminus : c ≠ '-' := hc.ne_of_all hbase' (by decide)
    have hplus : c ≠ '+' := hc.ne_of_all hbase' (by decide)
    rw [integerText, if_neg hneg, decide_eq_false hneg, hcons, Text.trimStart,
      List.dropWhile_cons_of_neg (by simp [hblank]), Syntax.splitSign_of_not_sign hminus hplus]

theorem digitsValue_radixDigits (k : Nat) : digitsValue base (radixDigits base k) = k :=
  digitsValue_radixDigitsBefore hbase hbase'

/-- The digits are read as the integer. -/
theorem parseInt_integerText (hn : n.natAbs < 2 ^ 53) :
    parseInt (integerText base n) base = Number.ofInt n := by
  have hvalue := digitsValue_radixDigits hbase hbase' n.natAbs
  have hread : ofDigits base (radixDigits base n.natAbs) = Number.ofNat n.natAbs := by
    rw [ofDigits_eq_horner (by omega) (by omega), horner_eq (by omega) (by omega) (by omega),
      hvalue]
  rw [parseInt_of_splitSign hbase hbase' (fun c hc => isDigitOf_of_mem_radixDigits hbase hc)
    (radixDigits_ne_nil base n.natAbs) (splitSign_integerText hbase hbase' n), hread, Number.ofInt]
  simp

end Integers

/-! ## The methods -/

section Calls

variable {x : Float} {n : Int} (call : Caller) (loc : Location) (s : State) (hbase : 2 ≤ base)
  (hbase' : base ≤ 36)

include hbase hbase'

theorem requestedBase_ofNat : requestedBase (Number.ofNat base) = base := by
  have hfinite : (Number.ofNat base).isInf = false := by
    change (Number.ofNat base).toModel.unpack.isInf = false
    rw [Number.unpack_ofNat (by omega) (by omega)]
    rfl
  rw [requestedBase, hfinite, if_neg Bool.false_ne_true, Number.toCount_ofNat (by omega)]

theorem toString_apply (h : StandsFor x n) :
    (Value.number x).callMethod call "toString" [.number (Number.ofNat base)] loc s =
      Eval.untested (.string (String.ofList (integerText base n))) s := by
  have hmethod : numberMethod s.heap x "toString" [.number (Number.ofNat base)] =
      if Number.toCount (Number.ofNat base) < 2 || Number.toCount (Number.ofNat base) > 36 then
        .error .radix
      else .ok (.string (radixText (Number.toCount (Number.ofNat base)) x)) := rfl
  have hrange : ¬ (base < 2 || base > 36) = true := by
    simp only [Bool.or_eq_true, decide_eq_true_eq]
    omega
  rw [Number.toCount_ofNat (by omega), if_neg hrange, radixText_eq base h] at hmethod
  have hcall : (Value.number x).callMethod call "toString" [.number (Number.ofNat base)] loc s =
      (do
        let text ← Eval.consultAt loc fun heap =>
          numberMethod heap x "toString" [.number (Number.ofNat base)]
        Eval.untested text) s := rfl
  rw [hcall, Eval.bind_apply, Eval.consultAt_apply, hmethod]
  rfl

theorem parseInt_apply (text : String) :
    Native.parseInt.call call [.string text, .number (Number.ofNat base)] loc s =
      .done (.number (parseInt text.toList base)) s := by
  have hcall : Native.parseInt.call call [.string text, .number (Number.ofNat base)] loc s =
      .done (.number (parseInt text.toList (requestedBase (Number.ofNat base)))) s := rfl
  rw [hcall, requestedBase_ofNat hbase hbase']

end Calls

/-- **There and back.** The text of an integer in a base between 2 and 36 is a minus sign, if the
integer is negative, and digits of the base. No zero stands in front unless it is all there is, as
for both zeros. In the same base the text is read as the integer. The reader, who goes on from digit
to digit in doubles, has the exact number behind every digit, and none of them exceeds the magnitude
of the integer. -/
theorem toString_parseInt (call : Caller) (loc loc' : Location) (s : State) {x : Float} {n : Int}
    (h : StandsFor x n) (hbase : 2 ≤ base) (hbase' : base ≤ 36) :
    ∃ digits s',
      (Value.number x).callMethod call "toString" [.number (Number.ofNat base)] loc s =
        .done (.string (String.ofList (if n < 0 then '-' :: digits else digits))) s' ∧
      Native.parseInt.call call [.string (String.ofList (if n < 0 then '-' :: digits else digits)),
        .number (Number.ofNat base)] loc' s' = .done (.number (Number.ofInt n)) s' ∧
      (∀ c ∈ digits, (digitIn? base c).isSome = true) ∧
      (n ≠ 0 → digits.head? ≠ some '0') ∧ (n = 0 → digits = ['0']) ∧
      ∀ front, front <+: digits →
        horner base front = Number.ofNat (digitsValue base front) ∧
          digitsValue base front ≤ n.natAbs := by
  have hdigits (c : Char) (hc : c ∈ radixDigits base n.natAbs) : IsDigitOf base c :=
    isDigitOf_of_mem_radixDigits hbase hc
  refine ⟨radixDigits base n.natAbs, _, toString_apply call loc s hbase hbase' h, ?_,
    fun c hc => (hdigits c hc).isSome hbase', ?_, ?_, ?_⟩
  · rw [parseInt_apply call loc' _ hbase hbase', String.toList_ofList]
    change Process.done (Value.number (parseInt (integerText base n) base)) _ = _
    rw [parseInt_integerText hbase hbase' h.natAbs_lt]
  · intro hn
    exact head?_radixDigitsBefore hbase hbase' (Int.natAbs_pos.mpr hn)
  · rintro rfl
    rw [radixDigits, radixDigitsBefore, dif_pos (Or.inl (by omega))]
    rfl
  · rintro front ⟨back, hfront⟩
    have hpos : 0 < base := by omega
    have hle := digitsValue_le_append hpos front back
    rw [hfront, digitsValue_radixDigits hbase hbase'] at hle
    have hlt := h.natAbs_lt
    exact ⟨horner_eq hpos (by omega) (by omega), hle⟩

/-- A negative integer with a letter among its digits. -/
theorem toString_parseInt_hexadecimal :
    (StandsFor (Number.ofInt (-255)) (-255) ∧ 2 ≤ 16 ∧ 16 ≤ 36) ∧
      ∃ digits s',
        (Value.number (Number.ofInt (-255))).callMethod (callWithin [] 0) "toString"
          [.number (Number.ofNat 16)] ⟨1, 9⟩ .initial =
            .done (.string (String.ofList ('-' :: digits))) s' ∧
        Native.parseInt.call (callWithin [] 0) [Value.string (String.ofList ('-' :: digits)),
          Value.number (Number.ofNat 16)] ⟨2, 9⟩ s' =
            .done (.number (Number.ofInt (-255))) s' ∧
        digits.head? ≠ some '0' := by
  have hstands : StandsFor (Number.ofInt (-255)) (-255) := .ofInt (by decide)
  have hlow : 2 ≤ 16 := by decide
  have hhigh : 16 ≤ 36 := by decide
  refine ⟨⟨hstands, hlow, hhigh⟩, ?_⟩
  obtain ⟨digits, s', hwrite, hread, -, hhead, -⟩ :=
    toString_parseInt (callWithin [] 0) ⟨1, 9⟩ ⟨2, 9⟩ .initial hstands hlow hhigh
  exact ⟨digits, s', hwrite, hread, hhead (by decide)⟩

end StepTrace.Builtin
