import Mathlib.Data.List.TakeWhile
import StepTrace.Syntax.Lexer

/-!
# The forms of numerals

A numeral is hexadecimal, or it has digits and underscores with a point and an exponent among
them or an `n` behind them. The forms are stated once (`numberLexeme_form`), as what the lexer
does with a text. The conversion of a numeral has a parser of its own, which is stricter than
the lexer; on what the lexer hands it, without the underscores, it does not fail
(`readDecimal?_of_form`).

* `IsExponent`: an exponent with its mark and its digits, or nothing.
* `NumeralForm`: what the lexer does with a text that starts with a digit or a point.
-/

namespace StepTrace.Syntax

/-! ## Letters and digits -/

section Characters

variable {c : Char}

-- `decide` would go through all characters where they are known to be finitely many
theorem forall_of_all {p : Char → Prop} [DecidablePred p] {cs : List Char}
    (h : cs.all (fun c => decide (p c)) = true) : ∀ c ∈ cs, p c :=
  fun c hc => of_decide_eq_true (List.all_eq_true.mp h c hc)

theorem isDigit_iff : c.isDigit = true ↔ 48 ≤ c.toNat ∧ c.toNat ≤ 57 :=
  Char.isDigit_iff_toNat

theorem isAlpha_iff : c.isAlpha = true ↔
    65 ≤ c.toNat ∧ c.toNat ≤ 90 ∨ 97 ≤ c.toNat ∧ c.toNat ≤ 122 := by
  have hupper : c.isUpper = true ↔ 65 ≤ c.toNat ∧ c.toNat ≤ 90 := decide_eq_true_iff
  have hlower : c.isLower = true ↔ 97 ≤ c.toNat ∧ c.toNat ≤ 122 := by
    change (decide _ && decide _) = true ↔ _
    rw [Bool.and_eq_true_iff, decide_eq_true_iff, decide_eq_true_iff]
    rfl
  rw [← hupper, ← hlower]
  exact Bool.or_eq_true_iff

theorem isAlphanum_iff : c.isAlphanum = true ↔
    (65 ≤ c.toNat ∧ c.toNat ≤ 90 ∨ 97 ≤ c.toNat ∧ c.toNat ≤ 122) ∨
      48 ≤ c.toNat ∧ c.toNat ≤ 57 := by
  rw [← isAlpha_iff, ← isDigit_iff]
  exact Bool.or_eq_true_iff

theorem isNamePart_of_isNameStart (h : isNameStart c = true) : isNamePart c = true := by
  simp only [isNameStart, isNamePart, Char.isAlphanum, Bool.or_eq_true] at h ⊢
  exact h.imp_left (Or.imp_left Or.inl)

theorem isDigit_of_isNameStart (h : isNameStart c = true) : c.isDigit = false := by
  simp only [isNameStart, Bool.or_eq_true, isAlpha_iff, beq_iff_eq] at h
  refine Bool.eq_false_iff.mpr fun hdigit => ?_
  rw [isDigit_iff] at hdigit
  rcases h with (h | rfl) | rfl
  · omega
  · simp at hdigit
  · simp at hdigit

end Characters

/-! ## Fractions and exponents -/

/-- A digit or an underscore. -/
def isDigitMark (c : Char) : Bool :=
  c.isDigit || c == '_'

/-- Nothing, or a point with the digits behind it. -/
def IsFraction (text : List Char) : Prop :=
  text = [] ∨ ∃ digits, text = '.' :: digits ∧ ∀ c ∈ digits, c.isDigit = true

/-- Nothing, or the mark of an exponent, a sign or none, and digits. -/
def IsExponent (text : List Char) : Prop :=
  text = [] ∨ ∃ mark sign digits, text = mark :: (sign ++ digits) ∧
    (mark = 'e' ∨ mark = 'E') ∧ (sign = [] ∨ sign = ['+'] ∨ sign = ['-']) ∧
    digits ≠ [] ∧ ∀ c ∈ digits, c.isDigit = true

theorem isDigit_of_mem_splitDigits {text : List Char} {c : Char}
    (h : c ∈ (Number.splitDigits text).1) : c.isDigit = true :=
  List.mem_takeWhile_imp h

theorem isFraction_fractionPart (rest : List Char) : IsFraction (fractionPart rest).1 := by
  unfold fractionPart
  split
  · exact Or.inl rfl
  · exact Or.inr ⟨_, rfl, fun c hc => isDigit_of_mem_splitDigits hc⟩
  · exact Or.inl rfl

theorem isExponent_exponentPart (rest : List Char) : IsExponent (exponentPart rest).1 := by
  -- the digits behind the mark and the sign, if there are any
  have hmarked : ∀ (mark : Char) (sign more : List Char), (mark = 'e' ∨ mark = 'E') →
      (sign = [] ∨ sign = ['+'] ∨ sign = ['-']) →
      IsExponent (if (Number.splitDigits more).1.isEmpty then ([], rest)
        else (mark :: sign ++ (Number.splitDigits more).1, (Number.splitDigits more).2)).1 := by
    intro mark sign more hmark hsign
    split
    · exact Or.inl rfl
    · rename_i hdigits
      exact Or.inr ⟨mark, sign, _, rfl, hmark, hsign, by simpa using hdigits,
        fun c hc => isDigit_of_mem_splitDigits hc⟩
  unfold exponentPart
  dsimp only
  split
  · split
    · rename_i mark more htest
      have hmark : mark = 'e' ∨ mark = 'E' := by simpa using htest
      split
      · exact hmarked mark ['+'] _ hmark (Or.inr (Or.inl rfl))
      · exact hmarked mark ['-'] _ hmark (Or.inr (Or.inr rfl))
      · exact hmarked mark [] more hmark (Or.inl rfl)
    · exact Or.inl rfl
  · exact Or.inl rfl

/-- What the lexer does with a text that starts with the character, a digit or a point. -/
inductive NumeralForm (first : Char) (rest : List Char) : Except Fault Lexeme → Prop
  | hexadecimal {mark : Char} {hex : List Char} (hfirst : first = '0') (hrest : rest = mark :: hex)
    (hmark : mark = 'x' ∨ mark = 'X') : NumeralForm first rest (hexLexeme ['0', mark] hex)
  | bigint {marks after : List Char} (hfirst : first ≠ '.')
    (hmarks : ∀ c ∈ marks, isDigitMark c = true) :
    NumeralForm first rest (.ok ⟨.bigint (String.ofList (dropUnderscores (first :: marks))),
      first :: marks ++ ['n'], after⟩)
  | decimal {fraction behind : List Char}
    (hfraction : IsFraction fraction) (hpoint : first = '.' → fraction = []) :
    NumeralForm first rest
      (numberLexeme.finish (first :: rest.takeWhile isDigitMark) fraction behind)

theorem numberLexeme_form (first : Char) (rest : List Char) :
    NumeralForm first rest (numberLexeme first rest) := by
  unfold numberLexeme
  split
  · exact .hexadecimal rfl rfl (Or.inl rfl)
  · exact .hexadecimal rfl rfl (Or.inr rfl)
  · dsimp only
    split
    · split
      · exact .decimal (Or.inl rfl) fun _ => rfl
      · rename_i hfirst
        exact .bigint hfirst fun c hc => List.mem_takeWhile_imp hc
    · split
      · exact .decimal (Or.inl rfl) fun _ => rfl
      · rename_i hfirst
        exact .decimal (isFraction_fractionPart _) fun h => absurd h hfirst

/-! ## Conversion -/

/-- The text does not start with a digit. -/
def StartsNoDigit (text : List Char) : Prop :=
  ∀ c ∈ text.head?, c.isDigit = false

theorem splitDigits_of_digits {digits rest : List Char} (hdigits : ∀ c ∈ digits, c.isDigit = true)
    (hrest : StartsNoDigit rest) : Number.splitDigits (digits ++ rest) = (digits, rest) := by
  have htake : rest.takeWhile Char.isDigit = [] ∧ rest.dropWhile Char.isDigit = rest := by
    cases rest with
    | nil => exact ⟨rfl, rfl⟩
    | cons c rest =>
        have hc : c.isDigit = false := hrest c rfl
        simp [hc]
  rw [Number.splitDigits, List.takeWhile_append_of_pos hdigits,
    List.dropWhile_append_of_pos hdigits, htake.1, htake.2, List.append_nil]

theorem splitSign_of_not_sign {c : Char} (hminus : c ≠ '-') (hplus : c ≠ '+') (rest : List Char) :
    Number.splitSign (c :: rest) = (false, c :: rest) := by
  unfold Number.splitSign
  split
  · next heq => exact absurd (List.cons.inj heq).1 hminus
  · next heq => exact absurd (List.cons.inj heq).1 hplus
  · rfl

theorem splitSign_of_digit {c : Char} (hc : c.isDigit = true ∨ c = '.') (rest : List Char) :
    Number.splitSign (c :: rest) = (false, c :: rest) := by
  apply splitSign_of_not_sign
  · rintro rfl
    exact absurd hc (by decide)
  · rintro rfl
    exact absurd hc (by decide)

theorem startsNoDigit_exponent {exponent : List Char} (h : IsExponent exponent) :
    StartsNoDigit exponent ∧ exponent.head? ≠ some '.' := by
  rcases h with rfl | ⟨mark, sign, digits, rfl, rfl | rfl, -⟩
  · exact ⟨nofun, nofun⟩
  · exact ⟨by rintro c ⟨⟩; rfl, by simp⟩
  · exact ⟨by rintro c ⟨⟩; rfl, by simp⟩

theorem readExponent?_isSome {exponent : List Char} (h : IsExponent exponent) :
    (Number.readExponent? exponent).isSome = true := by
  rcases h with rfl | ⟨mark, sign, digits, rfl, hmark, hsign, hne, hdigits⟩
  · rfl
  · obtain ⟨d, more, rfl⟩ := List.exists_cons_of_ne_nil hne
    have hall : Number.allDigits (d :: more) = true := by
      simpa [Number.allDigits] using hdigits
    have hsplit : (Number.splitSign (sign ++ d :: more)).2 = d :: more := by
      rcases hsign with rfl | rfl | rfl
      · rw [List.nil_append, splitSign_of_digit (Or.inl (hdigits d List.mem_cons_self))]
      · rfl
      · rfl
    simp [Number.readExponent?, hmark, hsplit, hall]

/-- Digits with a point before, behind or among them and an exponent are a decimal numeral. -/
theorem readDecimal?_isSome {whole fraction exponent : List Char}
    (hwhole : ∀ c ∈ whole, c.isDigit = true) (hfraction : IsFraction fraction)
    (hexponent : IsExponent exponent) (hne : whole ≠ [] ∨ ∃ d more, fraction = '.' :: d :: more) :
    (Number.readDecimal? (whole ++ (fraction ++ exponent))).isSome = true := by
  obtain ⟨hnodigit, hnopoint⟩ := startsNoDigit_exponent hexponent
  have hbehind : StartsNoDigit (fraction ++ exponent) := by
    rcases hfraction with rfl | ⟨digits, rfl, -⟩
    · exact hnodigit
    · rintro c ⟨⟩
      rfl
  have hsign : Number.splitSign (whole ++ (fraction ++ exponent)) =
      (false, whole ++ (fraction ++ exponent)) := by
    cases whole with
    | cons c whole => exact splitSign_of_digit (Or.inl (hwhole c List.mem_cons_self)) _
    | nil =>
        obtain ⟨d, more, rfl⟩ := hne.resolve_left fun h => h rfl
        exact splitSign_of_digit (Or.inr rfl) _
  rw [Number.readDecimal?, hsign]
  dsimp only
  rw [splitDigits_of_digits hwhole hbehind]
  dsimp only
  rcases hfraction with rfl | ⟨digits, rfl, hdigits⟩
  · have hwhole' : whole ≠ [] := hne.resolve_right nofun
    rw [List.nil_append]
    split
    · exact absurd rfl hnopoint
    · simp [hwhole', readExponent?_isSome hexponent]
  · have hne' : ¬ (whole = [] ∧ digits = []) := by
      rintro ⟨rfl, rfl⟩
      obtain ⟨d, more, heq⟩ := hne.resolve_left fun h => h rfl
      cases heq
    rw [List.cons_append]
    simp [splitDigits_of_digits hdigits hnodigit, hne', readExponent?_isSome hexponent]

theorem dropUnderscores_marks {marks : List Char} (h : ∀ c ∈ marks, isDigitMark c = true) :
    ∀ c ∈ dropUnderscores marks, c.isDigit = true := by
  intro c hc
  obtain ⟨hmem, hline⟩ := List.mem_filter.mp hc
  have hmark : c.isDigit = true ∨ c = '_' := by simpa [isDigitMark] using h c hmem
  exact hmark.resolve_right (by simpa using hline)

/-- A numeral starts with a digit, or with a point and a digit. -/
def StartsNumeral (first : Char) (rest : List Char) : Prop :=
  first.isDigit = true ∨ (first = '.' ∧ rest.head?.any Char.isDigit = true)

theorem dropUnderscores_eq {text : List Char} (h : '_' ∉ text) : dropUnderscores text = text := by
  refine List.filter_eq_self.mpr fun c hc => ?_
  rw [decide_eq_true_eq]
  rintro rfl
  exact h hc

theorem not_underscore_of_digits {digits : List Char} (h : ∀ c ∈ digits, c.isDigit = true) :
    '_' ∉ digits :=
  fun hmem => absurd (h '_' hmem) (by decide)

theorem IsFraction.no_underscore {fraction : List Char} (h : IsFraction fraction) :
    '_' ∉ fraction := by
  rcases h with rfl | ⟨digits, rfl, hdigits⟩
  · exact List.not_mem_nil
  · simpa using not_underscore_of_digits hdigits

theorem IsExponent.no_underscore {exponent : List Char} (h : IsExponent exponent) :
    '_' ∉ exponent := by
  rcases h with rfl | ⟨mark, sign, digits, rfl, hmark, hsign, -, hdigits⟩
  · exact List.not_mem_nil
  · have hdigits' := not_underscore_of_digits hdigits
    rcases hmark with rfl | rfl <;> rcases hsign with rfl | rfl | rfl <;> simp [hdigits']

theorem dropUnderscores_append (front back : List Char) :
    dropUnderscores (front ++ back) = dropUnderscores front ++ dropUnderscores back :=
  List.filter_append ..

theorem dropUnderscores_cons {c : Char} (hc : c ≠ '_') (text : List Char) :
    dropUnderscores (c :: text) = c :: dropUnderscores text := by
  simp [dropUnderscores, hc]

theorem ne_underscore_of_isDigit {c : Char} (hc : c.isDigit = true) : c ≠ '_' := by
  rintro rfl
  exact absurd hc (by decide)

/-- Without the underscores, what the lexer takes for a decimal numeral is one. -/
theorem readDecimal?_of_form {first : Char} {rest fraction exponent : List Char}
    (hstart : StartsNumeral first rest) (hfraction : IsFraction fraction)
    (hpoint : first = '.' → fraction = []) (hexponent : IsExponent exponent) :
    (Number.readDecimal? (dropUnderscores
      (first :: rest.takeWhile isDigitMark ++ fraction ++ exponent))).isSome = true := by
  have hmarks : ∀ c ∈ dropUnderscores (rest.takeWhile isDigitMark), c.isDigit = true :=
    dropUnderscores_marks fun c hc => List.mem_takeWhile_imp hc
  have hfirst : first ≠ '_' := by
    rcases hstart with hdigit | ⟨rfl, -⟩
    · exact ne_underscore_of_isDigit hdigit
    · decide
  rw [dropUnderscores_append, dropUnderscores_append, dropUnderscores_cons hfirst,
    dropUnderscores_eq hfraction.no_underscore, dropUnderscores_eq hexponent.no_underscore,
    List.append_assoc]
  rcases hstart with hdigit | ⟨rfl, hhead⟩
  · refine readDecimal?_isSome ?_ hfraction hexponent (Or.inl (List.cons_ne_nil _ _))
    intro c hc
    rcases List.mem_cons.mp hc with rfl | hc
    · exact hdigit
    · exact hmarks c hc
  · obtain ⟨d, more, rfl, hd⟩ : ∃ d more, rest = d :: more ∧ d.isDigit = true := by
      cases rest with
      | nil => simp at hhead
      | cons d more => exact ⟨d, more, rfl, by simpa using hhead⟩
    have hdigits : dropUnderscores ((d :: more).takeWhile isDigitMark) =
        d :: dropUnderscores (more.takeWhile isDigitMark) := by
      have hmark : isDigitMark d = true := by simp [isDigitMark, hd]
      rw [List.takeWhile_cons, hmark, if_pos rfl,
        dropUnderscores_cons (ne_underscore_of_isDigit hd)]
    have hread := readDecimal?_isSome (List.forall_mem_nil _) (Or.inr ⟨_, rfl, hmarks⟩) hexponent
      (Or.inr ⟨d, _, by rw [hdigits]⟩)
    rw [hpoint rfl, List.nil_append]
    exact hread

theorem finish_isOk {first : Char} {rest fraction : List Char} (hstart : StartsNumeral first rest)
    (hfraction : IsFraction fraction) (hpoint : first = '.' → fraction = [])
    (behind : List Char) : ∃ found,
      numberLexeme.finish (first :: rest.takeWhile isDigitMark) fraction behind = .ok found := by
  obtain ⟨x, hx⟩ := Option.isSome_iff_exists.mp
    (readDecimal?_of_form hstart hfraction hpoint (isExponent_exponentPart behind))
  simp only [numberLexeme.finish, hx]
  exact ⟨_, rfl⟩

/-- The conversion of a decimal numeral does not fail. -/
theorem numberLexeme_ne_invalidNumber {first : Char} {rest : List Char}
    (hstart : StartsNumeral first rest) (text : String) :
    numberLexeme first rest ≠ .error (.invalidNumber text) := by
  intro h
  have hform := numberLexeme_form first rest
  generalize numberLexeme first rest = result at hform h
  cases hform with
  | hexadecimal hfirst hrest hmark =>
      unfold hexLexeme at h
      dsimp only at h
      split at h <;> cases h
  | bigint hfirst hmarks => cases h
  | decimal hfraction hpoint =>
      obtain ⟨found, hfound⟩ := finish_isOk hstart hfraction hpoint _
      rw [hfound] at h
      cases h

end StepTrace.Syntax
