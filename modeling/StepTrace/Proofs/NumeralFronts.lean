import StepTrace.Builtin.Conversion
import StepTrace.Proofs.NumeralDoubles
import StepTrace.Proofs.Numerals

/-!
# Numerals at the front of a text

The longest numeral at the front of a text is found part by part: each part takes what it can get.
That is the longest numeral, because a part that takes less leaves a digit or a point behind, with
which no later part begins (`mantissaAtFront_append`). What is found is a numeral for the second
parser as well, which makes a double of it (`ofText_of_isNumeral`).

* `IsNumeral`: an optional sign, digits with a point among or beside them, an optional exponent.
* `numeralAtFront?_eq_some_iff`: the numeral that is found is the longest one.
-/

namespace StepTrace.Builtin

open Number (splitDigits)
open Syntax (IsExponent IsFraction StartsNoDigit)

variable {text rest sign digits mantissa exponent p q : List Char} {c : Char}

/-! ## Numerals -/

/-- Nothing, or a sign. -/
def IsSign (text : List Char) : Prop :=
  text = [] ∨ text = ['+'] ∨ text = ['-']

/-- Digits, with a point and further digits behind them or not, or a point and digits. -/
inductive IsMantissa : List Char → Prop
  | whole {digits fraction : List Char} (hne : digits ≠ [])
    (hdigits : ∀ c ∈ digits, c.isDigit = true) (hfraction : IsFraction fraction) :
    IsMantissa (digits ++ fraction)
  | places {digits : List Char} (hne : digits ≠ []) (hdigits : ∀ c ∈ digits, c.isDigit = true) :
    IsMantissa ('.' :: digits)

/-- A decimal numeral. -/
inductive IsNumeral : List Char → Prop
  | of {sign mantissa exponent : List Char} (hsign : IsSign sign) (hmantissa : IsMantissa mantissa)
    (hexponent : IsExponent exponent) : IsNumeral (sign ++ (mantissa ++ exponent))

/-- The text does not begin with a sign. -/
def StartsNoSign (text : List Char) : Prop :=
  ∀ c ∈ text.head?, c ≠ '-' ∧ c ≠ '+'

theorem startsNoSign_of_isDigit (hc : c.isDigit = true ∨ c = '.') : StartsNoSign (c :: rest) := by
  rintro d ⟨⟩
  constructor
  · rintro rfl
    exact absurd hc (by decide)
  · rintro rfl
    exact absurd hc (by decide)

theorem startsNoSign_of_digits (hne : digits ≠ []) (hdigits : ∀ c ∈ digits, c.isDigit = true)
    (rest : List Char) : StartsNoSign (digits ++ rest) := by
  obtain ⟨d, more, rfl⟩ := List.exists_cons_of_ne_nil hne
  exact startsNoSign_of_isDigit (Or.inl (hdigits d List.mem_cons_self))

theorem IsMantissa.startsNoSign (h : IsMantissa mantissa) (rest : List Char) :
    StartsNoSign (mantissa ++ rest) := by
  cases h with
  | whole hne hdigits hfraction =>
      rw [List.append_assoc]
      exact startsNoSign_of_digits hne hdigits _
  | places hne hdigits => exact startsNoSign_of_isDigit (Or.inr rfl)

/-! ## Signs -/

theorem isSign_signAtFront (text : List Char) : IsSign (signAtFront text).1 := by
  unfold signAtFront
  split
  · exact Or.inr (Or.inr rfl)
  · exact Or.inr (Or.inl rfl)
  · exact Or.inl rfl

theorem signAtFront_append_eq (text : List Char) :
    (signAtFront text).1 ++ (signAtFront text).2 = text := by
  unfold signAtFront
  split
  · rfl
  · rfl
  · rfl

theorem signAtFront_append (hsign : IsSign sign) (hrest : StartsNoSign rest) :
    signAtFront (sign ++ rest) = (sign, rest) := by
  rcases hsign with rfl | rfl | rfl
  · rw [List.nil_append]
    unfold signAtFront
    split
    · exact absurd rfl (hrest '-' rfl).1
    · exact absurd rfl (hrest '+' rfl).2
    · rfl
  · rfl
  · rfl

/-! ## Mantissas -/

theorem splitDigits_append_digits (hdigits : ∀ c ∈ digits, c.isDigit = true) (rest : List Char) :
    splitDigits (digits ++ rest) = (digits ++ (splitDigits rest).1, (splitDigits rest).2) := by
  rw [splitDigits, List.takeWhile_append_of_pos hdigits, List.dropWhile_append_of_pos hdigits]
  rfl

/-- The digits and the point at the front of a text without a sign, and the rest. -/
def mantissaAtFront (text : List Char) : List Char × List Char :=
  let (whole, rest) := splitDigits text
  match rest with
  | '.' :: more =>
    let (places, after) := splitDigits more
    if whole.isEmpty && places.isEmpty then ([], rest) else (whole ++ '.' :: places, after)
  | _ => (whole, rest)

theorem mantissaAtFront_point {whole more : List Char}
    (h : splitDigits text = (whole, '.' :: more)) : mantissaAtFront text =
      if whole.isEmpty && (splitDigits more).1.isEmpty then ([], '.' :: more)
      else (whole ++ '.' :: (splitDigits more).1, (splitDigits more).2) := by
  rw [mantissaAtFront, h]
  rfl

theorem mantissaAtFront_no_point {whole rest : List Char} (h : splitDigits text = (whole, rest))
    (hpoint : rest.head? ≠ some '.') : mantissaAtFront text = (whole, rest) := by
  rw [mantissaAtFront, h]
  dsimp only
  split
  · exact absurd rfl hpoint
  · rfl

theorem numeralAtFront?_eq (text : List Char) : numeralAtFront? text =
    if (mantissaAtFront (signAtFront text).2).1.isEmpty then none
    else some ((signAtFront text).1 ++ ((mantissaAtFront (signAtFront text).2).1 ++
      exponentAtFront (mantissaAtFront (signAtFront text).2).2)) := by
  generalize hsplit : splitDigits (signAtFront text).2 = parts
  obtain ⟨whole, rest⟩ := parts
  rw [numeralAtFront?]
  dsimp only
  rw [hsplit]
  dsimp only
  split
  · rw [mantissaAtFront_point hsplit]
    split
    · next hempty =>
        have hwhole : whole = [] := by simpa using (Bool.and_eq_true_iff.mp hempty).1
        simp [hwhole]
    · simp
  · next hpoint =>
      rw [mantissaAtFront_no_point hsplit]
      · simp
      · intro hhead
        obtain ⟨more, rfl⟩ := List.head?_eq_some_iff.mp hhead
        exact hpoint more rfl

/-- What is taken is there, and it is a mantissa unless it is nothing. -/
theorem mantissaAtFront_spec (text : List Char) :
    (mantissaAtFront text).1 ++ (mantissaAtFront text).2 = text ∧
      ((mantissaAtFront text).1 ≠ [] → IsMantissa (mantissaAtFront text).1) := by
  have happend := Number.splitDigits_append text
  have hwhole (c : Char) (hc : c ∈ (splitDigits text).1) : c.isDigit = true :=
    Syntax.isDigit_of_mem_splitDigits hc
  generalize hsplit : splitDigits text = parts at happend hwhole
  obtain ⟨whole, rest⟩ := parts
  dsimp only at happend hwhole
  by_cases hpoint : rest.head? = some '.'
  · obtain ⟨more, rfl⟩ := List.head?_eq_some_iff.mp hpoint
    have hplaces (c : Char) (hc : c ∈ (splitDigits more).1) : c.isDigit = true :=
      Syntax.isDigit_of_mem_splitDigits hc
    rw [mantissaAtFront_point hsplit]
    split
    · next hempty =>
        have hnone : whole = [] := by simpa using (Bool.and_eq_true_iff.mp hempty).1
        refine ⟨?_, fun hne => absurd rfl hne⟩
        rw [← happend, hnone]
    · next hempty =>
        constructor
        · rw [List.append_assoc, List.cons_append, Number.splitDigits_append, happend]
        · intro _
          by_cases hne : whole = []
          · subst hne
            exact .places (by simpa using hempty) hplaces
          · exact .whole hne hwhole (Or.inr ⟨_, rfl, hplaces⟩)
  · rw [mantissaAtFront_no_point hsplit hpoint]
    refine ⟨happend, fun hne => ?_⟩
    have hmantissa := IsMantissa.whole hne hwhole (Or.inl rfl)
    rwa [List.append_nil] at hmantissa

theorem splitDigits_of_startsNoDigit (h : StartsNoDigit rest) : splitDigits rest = ([], rest) :=
  Syntax.splitDigits_of_digits (List.forall_mem_nil _) h

/-- A mantissa at the front is taken, with more behind it only where digits or a point follow. -/
theorem mantissaAtFront_append (h : IsMantissa mantissa) (rest : List Char) :
    ∃ more after, mantissaAtFront (mantissa ++ rest) = (mantissa ++ more, after) ∧
      (StartsNoDigit rest → rest.head? ≠ some '.' → more = [] ∧ after = rest) := by
  have hpoint (more : List Char) : StartsNoDigit ('.' :: more) := by
    rintro c ⟨⟩
    rfl
  have hexact : StartsNoDigit rest → rest.head? ≠ some '.' →
      (splitDigits rest).1 = [] ∧ (splitDigits rest).2 = rest := by
    intro hdigit _
    rw [splitDigits_of_startsNoDigit hdigit]
    exact ⟨rfl, rfl⟩
  cases h with
  | @whole digits fraction hne hdigits hfraction =>
      rcases hfraction with rfl | ⟨places, rfl, hplaces⟩
      · -- what follows may go on with digits, with a point, or with neither
        have hsplit := splitDigits_append_digits hdigits rest
        rw [List.append_nil]
        by_cases hhead : (splitDigits rest).2.head? = some '.'
        · obtain ⟨more, hmore⟩ := List.head?_eq_some_iff.mp hhead
          rw [hmore] at hsplit
          rw [mantissaAtFront_point hsplit, if_neg (by simp [hne]), List.append_assoc]
          refine ⟨_, _, rfl, fun hdigit hno => ?_⟩
          rw [(hexact hdigit hno).2] at hhead
          exact absurd hhead hno
        · rw [mantissaAtFront_no_point hsplit hhead]
          exact ⟨_, _, rfl, hexact⟩
      · have hsplit : splitDigits (digits ++ '.' :: places ++ rest) =
            (digits, '.' :: (places ++ rest)) := by
          rw [List.append_assoc]
          exact Syntax.splitDigits_of_digits hdigits (hpoint _)
        rw [mantissaAtFront_point hsplit, if_neg (by simp [hne]),
          splitDigits_append_digits hplaces, ← List.cons_append, ← List.append_assoc]
        exact ⟨_, _, rfl, hexact⟩
  | @places digits hne hdigits =>
      have hsplit : splitDigits ('.' :: digits ++ rest) = ([], '.' :: (digits ++ rest)) := rfl
      rw [mantissaAtFront_point hsplit, splitDigits_append_digits hdigits,
        if_neg (by simp [hne]), List.nil_append, ← List.cons_append]
      exact ⟨_, _, rfl, hexact⟩

/-! ## Exponents -/

theorem exponentAtFront_spec (text : List Char) :
    exponentAtFront text <+: text ∧ IsExponent (exponentAtFront text) := by
  unfold exponentAtFront
  split
  · next c rest =>
      split
      · next hmark =>
          have happend := signAtFront_append_eq rest
          have hsplit := Number.splitDigits_append (signAtFront rest).2
          have hsign := isSign_signAtFront rest
          dsimp only
          split
          · exact ⟨List.nil_prefix, Or.inl rfl⟩
          · next hdigits =>
              constructor
              · refine ⟨(splitDigits (signAtFront rest).2).2, ?_⟩
                rw [List.append_assoc, hsplit, List.cons_append, happend]
              · exact Or.inr ⟨c, _, _, rfl, by simpa using hmark, hsign, by simpa using hdigits,
                  fun d hd => Syntax.isDigit_of_mem_splitDigits hd⟩
      · exact ⟨List.nil_prefix, Or.inl rfl⟩
  · exact ⟨List.nil_prefix, Or.inl rfl⟩

theorem exponentAtFront_append (h : IsExponent exponent) (hne : exponent ≠ []) (rest : List Char) :
    exponent <+: exponentAtFront (exponent ++ rest) := by
  rcases h with rfl | ⟨mark, sign, digits, rfl, hmark, hsign, hnone, hdigits⟩
  · exact absurd rfl hne
  · have hfront := signAtFront_append hsign (startsNoSign_of_digits hnone hdigits rest)
    rw [List.cons_append, List.append_assoc, exponentAtFront,
      if_pos (by simpa using hmark), hfront]
    dsimp only
    rw [splitDigits_append_digits hdigits, if_neg (by simp [hnone]), ← List.append_assoc]
    exact List.prefix_append _ _

/-! ## The longest numeral -/

theorem isNumeral_of_numeralAtFront? (h : numeralAtFront? text = some p) :
    p <+: text ∧ IsNumeral p := by
  obtain ⟨hmantissa, hform⟩ := mantissaAtFront_spec (signAtFront text).2
  obtain ⟨hexponent, hexponent'⟩ := exponentAtFront_spec (mantissaAtFront (signAtFront text).2).2
  rw [numeralAtFront?_eq, Option.ite_none_left_eq_some] at h
  obtain ⟨hne, hp⟩ := h
  obtain rfl := Option.some.inj hp
  refine ⟨?_, .of (isSign_signAtFront text) (hform (by simpa using hne)) hexponent'⟩
  have happend := signAtFront_append_eq text
  rw [← hmantissa] at happend
  calc (signAtFront text).1 ++ ((mantissaAtFront (signAtFront text).2).1 ++
        exponentAtFront (mantissaAtFront (signAtFront text).2).2)
      <+: (signAtFront text).1 ++ ((mantissaAtFront (signAtFront text).2).1 ++
        (mantissaAtFront (signAtFront text).2).2) := by
        simpa using hexponent
    _ = text := happend

/-- A numeral at the front is found, or a longer one. -/
theorem numeralAtFront?_append (h : IsNumeral q) (rest : List Char) :
    ∃ p, numeralAtFront? (q ++ rest) = some p ∧ q <+: p := by
  cases h with
  | @of sign mantissa exponent hsign hmantissa hexponent =>
      obtain ⟨more, after, hfront, hexact⟩ := mantissaAtFront_append hmantissa (exponent ++ rest)
      have hne : mantissa ≠ [] := by
        cases hmantissa with
        | whole hne hdigits hfraction => simp [hne]
        | places hne hdigits => exact List.cons_ne_nil _ _
      rw [numeralAtFront?_eq, List.append_assoc, List.append_assoc,
        signAtFront_append hsign (hmantissa.startsNoSign _), hfront, if_neg (by simp [hne])]
      refine ⟨_, rfl, ?_⟩
      rw [List.prefix_append_right_inj, List.append_assoc, List.prefix_append_right_inj]
      by_cases hnone : exponent = []
      · rw [hnone]
        exact List.nil_prefix
      · -- a mantissa does not go on with the mark of an exponent
        obtain ⟨hnodigit, hnopoint⟩ := Syntax.startsNoDigit_exponent hexponent
        have hhead : (exponent ++ rest).head? = exponent.head? := by
          obtain ⟨mark, digits, rfl⟩ := List.exists_cons_of_ne_nil hnone
          rfl
        have hnodigit' : StartsNoDigit (exponent ++ rest) := by
          rwa [StartsNoDigit, hhead]
        obtain ⟨rfl, rfl⟩ := hexact hnodigit' (by rwa [hhead])
        exact exponentAtFront_append hexponent hnone rest

/-- The numeral at the front of the text that no other one is longer than. -/
structure Longest (text p : List Char) : Prop where
  isPrefix : p <+: text
  isNumeral : IsNumeral p
  length_le : ∀ q, q <+: text → IsNumeral q → q.length ≤ p.length

theorem numeralAtFront?_eq_some_iff : numeralAtFront? text = some p ↔ Longest text p := by
  have hlongest (p : List Char) (h : numeralAtFront? text = some p) : Longest text p := by
    obtain ⟨hbegins, hnumeral⟩ := isNumeral_of_numeralAtFront? h
    refine ⟨hbegins, hnumeral, ?_⟩
    rintro q ⟨rest, rfl⟩ hq
    obtain ⟨p', hp', hle⟩ := numeralAtFront?_append hq rest
    rw [h] at hp'
    obtain rfl := Option.some.inj hp'
    exact hle.length_le
  constructor
  · exact hlongest p
  · intro h
    obtain ⟨rest, hrest⟩ := h.isPrefix
    obtain ⟨p', hp', hle⟩ := numeralAtFront?_append h.isNumeral rest
    rw [hrest] at hp'
    obtain ⟨hbegins, hnumeral⟩ := isNumeral_of_numeralAtFront? hp'
    have hlength := h.length_le p' hbegins hnumeral
    rw [hp', hle.eq_of_length_le hlength]

theorem numeralAtFront?_eq_none_iff :
    numeralAtFront? text = none ↔ ∀ p, p <+: text → ¬ IsNumeral p := by
  constructor
  · rintro h p ⟨rest, rfl⟩ hp
    obtain ⟨p', hp', -⟩ := numeralAtFront?_append hp rest
    rw [h] at hp'
    cases hp'
  · intro h
    refine Option.eq_none_iff_forall_ne_some.mpr fun p hp => ?_
    obtain ⟨hbegins, hnumeral⟩ := isNumeral_of_numeralAtFront? hp
    exact h p hbegins hnumeral

/-! ## The second parser -/

/-- A character that numerals are made of. -/
def isNumeralChar (c : Char) : Bool :=
  c.isDigit || ['+', '-', '.', 'e', 'E'].contains c

theorem not_isBlank_of_isNumeralChar (h : isNumeralChar c = true) : Text.isBlank c = false := by
  rcases Bool.or_eq_true_iff.mp h with hdigit | hmark
  · have hrange := Syntax.isDigit_iff.mp hdigit
    have hsmall : Text.isBlank (Char.ofNat c.toNat) = false := by
      generalize c.toNat = n at hrange
      have hall : ∀ n < 58, 48 ≤ n → Text.isBlank (Char.ofNat n) = false := by decide
      exact hall n (by omega) hrange.1
    rwa [Char.ofNat_toNat] at hsmall
  · have hall : ∀ c ∈ ['+', '-', '.', 'e', 'E'], Text.isBlank c = false :=
      Syntax.forall_of_all (by decide)
    exact hall c (List.contains_iff_mem.mp hmark)

theorem isNumeralChar_of_digits (h : ∀ c ∈ digits, c.isDigit = true) :
    ∀ c ∈ digits, isNumeralChar c = true :=
  fun c hc => Bool.or_eq_true_iff.mpr (Or.inl (h c hc))

theorem IsSign.isNumeralChar (h : IsSign sign) : ∀ c ∈ sign, isNumeralChar c = true := by
  rcases h with rfl | rfl | rfl
  · exact List.forall_mem_nil _
  · exact List.forall_mem_singleton.mpr (by decide)
  · exact List.forall_mem_singleton.mpr (by decide)

theorem IsMantissa.isNumeralChar (h : IsMantissa mantissa) :
    ∀ c ∈ mantissa, isNumeralChar c = true := by
  have hplaces (digits : List Char) (h : ∀ c ∈ digits, c.isDigit = true) :
      ∀ c ∈ '.' :: digits, Builtin.isNumeralChar c = true :=
    List.forall_mem_cons.mpr ⟨by decide, isNumeralChar_of_digits h⟩
  cases h with
  | whole hne hdigits hfraction =>
      refine List.forall_mem_append.mpr ⟨isNumeralChar_of_digits hdigits, ?_⟩
      rcases hfraction with rfl | ⟨places, rfl, h⟩
      · exact List.forall_mem_nil _
      · exact hplaces places h
  | places hne hdigits => exact hplaces _ hdigits

theorem isNumeralChar_of_isExponent (h : IsExponent exponent) :
    ∀ c ∈ exponent, isNumeralChar c = true := by
  rcases h with rfl | ⟨mark, sign, digits, rfl, hmark, hsign, -, hdigits⟩
  · exact List.forall_mem_nil _
  · have hchar : isNumeralChar mark = true := by
      rcases hmark with rfl | rfl
      · decide
      · decide
    have hsign' : IsSign sign := hsign
    exact List.forall_mem_cons.mpr
      ⟨hchar, List.forall_mem_append.mpr ⟨hsign'.isNumeralChar, isNumeralChar_of_digits hdigits⟩⟩

theorem IsNumeral.isNumeralChar (h : IsNumeral p) : ∀ c ∈ p, isNumeralChar c = true := by
  cases h with
  | of hsign hmantissa hexponent =>
      exact List.forall_mem_append.mpr ⟨hsign.isNumeralChar, List.forall_mem_append.mpr
        ⟨hmantissa.isNumeralChar, isNumeralChar_of_isExponent hexponent⟩⟩

theorem splitSign_append (hsign : IsSign sign) (hrest : StartsNoSign rest) :
    (Number.splitSign (sign ++ rest)).2 = rest := by
  rcases hsign with rfl | rfl | rfl
  · cases rest with
    | nil => rfl
    | cons c more =>
        obtain ⟨hminus, hplus⟩ := hrest c rfl
        rw [List.nil_append, Syntax.splitSign_of_not_sign hminus hplus]
  · rfl
  · rfl

/-- The sign does not matter for whether a text is a numeral. -/
theorem isSome_readDecimal?_congr {text text' : List Char}
    (h : (Number.splitSign text).2 = (Number.splitSign text').2) :
    (Number.readDecimal? text).isSome = (Number.readDecimal? text').isSome := by
  rw [Number.readDecimal?, Number.readDecimal?]
  dsimp only
  rw [h]
  split
  · split
    · rfl
    · rw [Option.isSome_map, Option.isSome_map]
  · split
    · rfl
    · rw [Option.isSome_map, Option.isSome_map]

theorem IsNumeral.readDecimal?_isSome (h : IsNumeral p) :
    (Number.readDecimal? p).isSome = true := by
  cases h with
  | @of sign mantissa exponent hsign hmantissa hexponent =>
      have hnosign := hmantissa.startsNoSign exponent
      have hnone : IsSign [] := Or.inl rfl
      rw [isSome_readDecimal?_congr ((splitSign_append hsign hnosign).trans
        (splitSign_append hnone hnosign).symm), List.nil_append]
      cases hmantissa with
      | whole hne hdigits hfraction =>
          rw [List.append_assoc]
          exact Syntax.readDecimal?_isSome hdigits hfraction hexponent (Or.inl hne)
      | @places digits hne hdigits =>
          obtain ⟨d, more, rfl⟩ := List.exists_cons_of_ne_nil hne
          exact Syntax.readDecimal?_isSome (List.forall_mem_nil _) (Or.inr ⟨_, rfl, hdigits⟩)
            hexponent (Or.inr ⟨d, more, rfl⟩)

theorem trim_of_not_blank (h : ∀ c ∈ text, Text.isBlank c = false) : Text.trim text = text := by
  have hdrop (text : List Char) (h : ∀ c ∈ text, Text.isBlank c = false) :
      text.dropWhile Text.isBlank = text := by
    cases text with
    | nil => rfl
    | cons c rest => exact List.dropWhile_cons_of_neg (by simp [h c List.mem_cons_self])
  rw [Text.trim, Text.trimStart, hdrop text h, Text.trimEnd,
    hdrop _ fun c hc => h c (List.mem_reverse.mp hc), List.reverse_reverse]

/-- A numeral is a number for the second parser. -/
theorem ofText_of_isNumeral (h : IsNumeral p) : (Number.ofText p).isNaN = false := by
  have hchar := h.isNumeralChar
  obtain ⟨x, hx⟩ := Option.isSome_iff_exists.mp h.readDecimal?_isSome
  have hno (c : Char) (hc : isNumeralChar c = false) : c ∉ p := by
    intro hmem
    rw [hchar c hmem] at hc
    cases hc
  rw [Number.ofText, trim_of_not_blank fun c hc => not_isBlank_of_isNumeralChar (hchar c hc)]
  split
  · rfl
  · exact absurd (by simp) (hno 'x' (by decide))
  · exact absurd (by simp) (hno 'X' (by decide))
  · have hword (word : List Char) (hmem : 'I' ∈ word) : p ≠ word := by
      rintro rfl
      exact hno 'I' (by decide) hmem
    rw [if_neg, if_neg (hword "-Infinity".toList (by decide)), hx]
    · exact Number.isNaN_of_readDecimal? hx
    · rw [Bool.or_eq_true_iff, decide_eq_true_iff, decide_eq_true_iff]
      exact not_or.mpr ⟨hword "Infinity".toList (by decide), hword "+Infinity".toList (by decide)⟩

end StepTrace.Builtin
