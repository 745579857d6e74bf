import StepTrace.Eval.Run
import StepTrace.Proofs.NumeralFronts

/-!
# Numerals by positions in bytes

A text is bytes in UTF-8, and a part of it is taken by positions in the bytes, which have to be
inside the text and between two characters. The numeral at the front of a text can be found that
way: the scanner only moves on over characters of one byte each, so every position that it comes to
is one where the text may be cut (`scanned?_eq`).

* `cutAt?`, `digitsFrom?`: the two ways to take a part, nothing if the position is none.
* `parseFloat_longest`: what is read from the front of a text.
-/

namespace StepTrace.Builtin

open Number (splitDigits)

variable {text front back rest : List Char} {c : Char} {b : UInt8} {k : Nat}

/-! ## Bytes -/

/-- The text in UTF-8. -/
def utf8 (text : List Char) : List UInt8 :=
  text.flatMap String.utf8EncodeChar

theorem utf8_append (front back : List Char) : utf8 (front ++ back) = utf8 front ++ utf8 back :=
  List.flatMap_append

theorem utf8_cons (c : Char) (rest : List Char) :
    utf8 (c :: rest) = String.utf8EncodeChar c ++ utf8 rest := List.flatMap_cons

/-- A character below 128 is the byte itself, and every other one begins with a greater byte. -/
theorem utf8EncodeChar_form (c : Char) :
    (c.toNat < 128 ∧ String.utf8EncodeChar c = [c.toUInt8]) ∨
      128 ≤ c.toNat ∧ ∃ b more, String.utf8EncodeChar c = b :: more ∧ 128 ≤ b.toNat := by
  have hval : c.val.toNat = c.toNat := rfl
  unfold String.utf8EncodeChar
  rw [hval]
  by_cases hone : c.toNat ≤ 0x7f
  · rw [if_pos hone]
    exact Or.inl ⟨by omega, rfl⟩
  · refine Or.inr ⟨by omega, ?_⟩
    rw [if_neg hone]
    split
    · refine ⟨_, _, rfl, ?_⟩
      rw [UInt8.toNat_ofNat']
      omega
    · split
      · refine ⟨_, _, rfl, ?_⟩
        rw [UInt8.toNat_ofNat']
        omega
      · refine ⟨_, _, rfl, ?_⟩
        rw [UInt8.toNat_ofNat']
        omega

/-- The text is cut at a position in its bytes; nothing if there is none between two characters. -/
def cutAt? : List Char → Nat → Option (List Char × List Char)
  | text, 0 => some ([], text)
  | [], _ + 1 => none
  | c :: rest, k + 1 =>
    if c.utf8Size ≤ k + 1 then
      (cutAt? rest (k + 1 - c.utf8Size)).map fun parts => (c :: parts.1, parts.2)
    else none

theorem length_utf8_cons (c : Char) (rest : List Char) :
    (utf8 (c :: rest)).length = c.utf8Size + (utf8 rest).length := by
  rw [utf8_cons, List.length_append, String.length_utf8EncodeChar]

/-- A text is cut into two where the bytes of the first one end. -/
theorem cutAt?_eq_some_iff :
    cutAt? text k = some (front, back) ↔ front ++ back = text ∧ (utf8 front).length = k := by
  fun_induction cutAt? text k generalizing front back with
  | case1 text =>
      rw [Option.some.injEq, Prod.mk.injEq]
      constructor
      · rintro ⟨rfl, rfl⟩
        exact ⟨rfl, rfl⟩
      · rintro ⟨rfl, hlength⟩
        cases front with
        | nil => exact ⟨rfl, rfl⟩
        | cons c front =>
            have hpos := c.utf8Size_pos
            rw [length_utf8_cons] at hlength
            omega
  | case2 k =>
      constructor
      · intro h
        cases h
      · rintro ⟨happend, hlength⟩
        rw [(List.append_eq_nil_iff.mp happend).1] at hlength
        cases hlength
  | case3 c rest k hsize ih =>
      rw [Option.map_eq_some_iff]
      constructor
      · rintro ⟨parts, hparts, heq⟩
        obtain ⟨rfl, rfl⟩ := Prod.mk.inj heq
        obtain ⟨happend, hlength⟩ := ih.mp hparts
        refine ⟨by rw [List.cons_append, happend], ?_⟩
        rw [length_utf8_cons, hlength]
        omega
      · rintro ⟨happend, hlength⟩
        cases front with
        | nil => cases hlength
        | cons d front =>
            obtain ⟨rfl, rfl⟩ := List.cons.inj happend
            rw [length_utf8_cons] at hlength
            exact ⟨(front, back), ih.mpr ⟨rfl, by omega⟩, rfl⟩
  | case4 c rest k hsize =>
      constructor
      · intro h
        cases h
      · rintro ⟨happend, hlength⟩
        cases front with
        | nil => cases hlength
        | cons d front =>
            obtain ⟨rfl, rfl⟩ := List.cons.inj happend
            rw [length_utf8_cons] at hlength
            omega

/-- A digit as a byte. -/
def isDigitByte (b : UInt8) : Bool :=
  '0'.toUInt8 ≤ b && b ≤ '9'.toUInt8

/-- The number of digits at a position in the bytes; nothing if the position is outside. -/
def digitsFrom? (bytes : List UInt8) (start : Nat) : Option Nat :=
  if start ≤ bytes.length then some ((bytes.drop start).takeWhile isDigitByte).length else none

/-! ## The scanner -/

/-- The end of the sign. -/
def signEnd (bytes : List UInt8) : Nat :=
  if bytes[0]? = some '+'.toUInt8 || bytes[0]? = some '-'.toUInt8 then 1 else 0

/-- The end of the digits and the point; `some none` if there are no digits. -/
def mantissaEnd? (bytes : List UInt8) (start : Nat) : Option (Option Nat) := do
  let whole ← digitsFrom? bytes start
  let point := start + whole
  if bytes[point]? = some '.'.toUInt8 then
    let places ← digitsFrom? bytes (point + 1)
    pure (if whole = 0 && places = 0 then none else some (point + 1 + places))
  else pure (if whole = 0 then none else some point)

/-- The end of the exponent. -/
def exponentEnd? (bytes : List UInt8) (start : Nat) : Option Nat :=
  if bytes[start]? = some 'e'.toUInt8 || bytes[start]? = some 'E'.toUInt8 then do
    let behind := start + 1 + signEnd (bytes.drop (start + 1))
    let digits ← digitsFrom? bytes behind
    pure (if digits = 0 then start else behind + digits)
  else some start

/-- The number at the front of a text, found by positions in its bytes; nothing if one of them is no
position at which the text may be cut. -/
def scanned? (text : List Char) : Option Float := do
  let bytes := utf8 text
  let start := signEnd bytes
  let body ← cutAt? text start
  if "Infinity".toList.isPrefixOf body.2 then
    pure (if bytes[0]? = some '-'.toUInt8 then -Number.infinity else Number.infinity)
  else
    let stop? ← mantissaEnd? bytes start
    match stop? with
    | none => pure Number.nan
    | some stop =>
      let stop ← exponentEnd? bytes stop
      let parts ← cutAt? text stop
      pure (Number.ofText parts.1)

/-! ## Positions behind characters of one byte -/

theorem toNat_toUInt8 (h : c.toNat < 128) : c.toUInt8.toNat = c.toNat := by
  have hmod : c.toUInt8.toNat = c.toNat % 256 := rfl
  omega

/-- The first byte tells whether a text begins with a certain character below 128. -/
theorem firstByte_iff (hc : c.toNat < 128) (rest : List Char) :
    (utf8 rest)[0]? = some c.toUInt8 ↔ rest.head? = some c := by
  cases rest with
  | nil => simp [utf8]
  | cons d rest =>
      rw [utf8_cons, List.head?_cons, Option.some.injEq]
      rcases utf8EncodeChar_form d with ⟨hd, hbytes⟩ | ⟨hd, b, more, hbytes, hb⟩
      · rw [hbytes, List.cons_append, List.getElem?_cons_zero, Option.some.injEq,
          ← UInt8.toNat_inj, toNat_toUInt8 hd, toNat_toUInt8 hc, Char.toNat_inj]
      · rw [hbytes, List.cons_append, List.getElem?_cons_zero, Option.some.injEq,
          ← UInt8.toNat_inj, toNat_toUInt8 hc]
        constructor
        · omega
        · rintro rfl
          omega

/-- Only characters that are one byte each. -/
def OneByteEach (text : List Char) : Prop :=
  ∀ c ∈ text, c.toNat < 128

theorem isDigitByte_head (c : Char) : ∃ b more, String.utf8EncodeChar c = b :: more ∧
    isDigitByte b = c.isDigit ∧ (c.isDigit = true → more = []) := by
  have hdigit (b : UInt8) : isDigitByte b = true ↔ 48 ≤ b.toNat ∧ b.toNat ≤ 57 := by
    rw [isDigitByte, Bool.and_eq_true_iff, decide_eq_true_iff, decide_eq_true_iff]
    rfl
  rcases utf8EncodeChar_form c with ⟨hc, hbytes⟩ | ⟨hc, b, more, hbytes, hb⟩
  · refine ⟨_, [], hbytes, ?_, fun _ => rfl⟩
    rw [Bool.eq_iff_iff, hdigit, toNat_toUInt8 hc, Syntax.isDigit_iff]
  · refine ⟨b, more, hbytes, ?_, fun h => ?_⟩
    · rw [Bool.eq_iff_iff, hdigit, Syntax.isDigit_iff]
      omega
    · have hrange := Syntax.isDigit_iff.mp h
      omega

/-- Counting digits in the bytes is counting them in the text. -/
theorem length_takeWhile_isDigitByte (text : List Char) :
    ((utf8 text).takeWhile isDigitByte).length = (splitDigits text).1.length := by
  rw [splitDigits]
  dsimp only
  induction text with
  | nil => rfl
  | cons c rest ih =>
      obtain ⟨b, more, hbytes, hdigit, hone⟩ := isDigitByte_head c
      rw [utf8_cons, hbytes, List.cons_append, List.takeWhile_cons, List.takeWhile_cons, hdigit]
      by_cases hc : c.isDigit = true
      · rw [if_pos hc, if_pos hc, hone hc, List.nil_append, List.length_cons, List.length_cons, ih]
      · rw [if_neg hc, if_neg hc, List.length_nil, List.length_nil]

section Positions

variable (hfront : OneByteEach front) (rest : List Char)

include hfront

omit rest in
theorem length_utf8 : (utf8 front).length = front.length := by
  induction front with
  | nil => rfl
  | cons c front ih =>
      obtain ⟨hc, hmore⟩ := List.forall_mem_cons.mp hfront
      rcases utf8EncodeChar_form c with ⟨-, hbytes⟩ | ⟨hlarge, -⟩
      · rw [utf8_cons, hbytes, List.length_append, ih hmore, List.length_singleton,
          List.length_cons, Nat.add_comm]
      · omega

theorem drop_utf8 : (utf8 (front ++ rest)).drop front.length = utf8 rest := by
  rw [utf8_append, ← length_utf8 hfront, List.drop_left]

theorem getElem?_utf8 : (utf8 (front ++ rest))[front.length]? = (utf8 rest)[0]? := by
  rw [← drop_utf8 hfront rest, List.getElem?_drop]
  rfl

theorem cutAt?_front : cutAt? (front ++ rest) front.length = some (front, rest) :=
  cutAt?_eq_some_iff.mpr ⟨rfl, length_utf8 hfront⟩

theorem digitsFrom?_front :
    digitsFrom? (utf8 (front ++ rest)) front.length = some (splitDigits rest).1.length := by
  have hle : front.length ≤ (utf8 (front ++ rest)).length := by
    rw [utf8_append, List.length_append, length_utf8 hfront]
    exact Nat.le_add_right _ _
  rw [digitsFrom?, if_pos hle, drop_utf8 hfront, length_takeWhile_isDigitByte]

/-- The byte at the end of the characters tells how the rest begins. -/
theorem byte_iff (hc : c.toNat < 128) :
    (utf8 (front ++ rest))[front.length]? = some c.toUInt8 ↔ rest.head? = some c := by
  rw [getElem?_utf8 hfront, firstByte_iff hc]

end Positions

theorem OneByteEach.append (hfront : OneByteEach front) (hback : OneByteEach back) :
    OneByteEach (front ++ back) :=
  List.forall_mem_append.mpr ⟨hfront, hback⟩

theorem oneByteEach_of_isNumeralChar (h : ∀ c ∈ text, isNumeralChar c = true) :
    OneByteEach text := by
  intro c hc
  rcases Bool.or_eq_true_iff.mp (h c hc) with hdigit | hmark
  · have hrange := Syntax.isDigit_iff.mp hdigit
    omega
  · have hall : ∀ c ∈ ['+', '-', '.', 'e', 'E'], c.toNat < 128 :=
      Syntax.forall_of_all (by decide)
    exact hall c (List.contains_iff_mem.mp hmark)

/-! ## The parts of a numeral -/

theorem signEnd_eq (text : List Char) : signEnd (utf8 text) = (signAtFront text).1.length := by
  unfold signAtFront
  split
  · rfl
  · rfl
  · next hminus hplus =>
      rw [signEnd, if_neg]
      · rfl
      · rw [Bool.or_eq_true_iff, decide_eq_true_iff, decide_eq_true_iff,
          firstByte_iff (by decide), firstByte_iff (by decide), List.head?_eq_some_iff,
          List.head?_eq_some_iff]
        rintro (⟨rest, rfl⟩ | ⟨rest, rfl⟩)
        · exact hplus rest rfl
        · exact hminus rest rfl

theorem mantissaEnd?_eq (hfront : OneByteEach front) (body : List Char) :
    mantissaEnd? (utf8 (front ++ body)) front.length =
      some (if (mantissaAtFront body).1.isEmpty then none
        else some (front ++ (mantissaAtFront body).1).length) := by
  have happend := Number.splitDigits_append body
  have hwhole (c : Char) (hc : c ∈ (splitDigits body).1) : c.isDigit = true :=
    Syntax.isDigit_of_mem_splitDigits hc
  have hcount := digitsFrom?_front hfront body
  generalize hsplit : splitDigits body = parts at happend hwhole hcount
  obtain ⟨whole, rest⟩ := parts
  dsimp only at happend hwhole hcount
  have hfront' : OneByteEach (front ++ whole) :=
    hfront.append (oneByteEach_of_isNumeralChar (isNumeralChar_of_digits hwhole))
  have hbytes : utf8 (front ++ body) = utf8 (front ++ whole ++ rest) := by
    rw [List.append_assoc, happend]
  have hpoint : (utf8 (front ++ whole ++ rest))[(front ++ whole).length]? = some '.'.toUInt8 ↔
      rest.head? = some '.' := byte_iff hfront' rest (by decide)
  rw [mantissaEnd?, hcount, Option.bind_eq_bind, Option.bind_some, hbytes, ← List.length_append]
  dsimp only
  by_cases hhead : rest.head? = some '.'
  · obtain ⟨more, rfl⟩ := List.head?_eq_some_iff.mp hhead
    have hbehind : OneByteEach (front ++ whole ++ ['.']) :=
      hfront'.append (List.forall_mem_singleton.mpr (by decide))
    have hplaces := digitsFrom?_front hbehind more
    have htext : front ++ whole ++ ['.'] ++ more = front ++ whole ++ '.' :: more :=
      List.append_assoc _ _ _
    have hlength : (front ++ whole ++ ['.']).length = (front ++ whole).length + 1 :=
      List.length_append
    rw [htext, hlength] at hplaces
    rw [if_pos (hpoint.mpr hhead), hplaces, Option.bind_some, mantissaAtFront_point hsplit]
    by_cases hempty : (whole.isEmpty && (splitDigits more).1.isEmpty) = true
    · rw [if_pos hempty, if_pos (by simpa using hempty)]
      rfl
    · rw [if_neg hempty, if_neg (by simpa using hempty), if_neg (by simp), Option.pure_def]
      simp only [List.length_append, List.length_cons]
      congr 2
      omega
  · rw [if_neg fun h => hhead (hpoint.mp h), mantissaAtFront_no_point hsplit hhead]
    cases whole with
    | nil => rfl
    | cons d more => rfl

/-- The exponent behind its mark. -/
theorem exponentEnd?_marked (hfront : OneByteEach front) {mark : Char}
    (hmark : mark = 'e' ∨ mark = 'E') (rest : List Char) :
    exponentEnd? (utf8 (front ++ mark :: rest)) front.length =
      some (front ++ exponentAtFront (mark :: rest)).length := by
  have hlt : mark.toNat < 128 := by
    rcases hmark with rfl | rfl
    · decide
    · decide
  have hone : OneByteEach [mark] := List.forall_mem_singleton.mpr hlt
  have hsign := oneByteEach_of_isNumeralChar (isSign_signAtFront rest).isNumeralChar
  have hbyte := (byte_iff hfront (mark :: rest) hlt).mpr rfl
  have hbytes : ((utf8 (front ++ mark :: rest))[front.length]? = some 'e'.toUInt8 ||
      (utf8 (front ++ mark :: rest))[front.length]? = some 'E'.toUInt8) = true := by
    rw [hbyte]
    rcases hmark with rfl | rfl
    · rfl
    · rfl
  have hdrop := drop_utf8 (hfront.append hone) rest
  have hmarked : front ++ [mark] ++ rest = front ++ mark :: rest := List.append_assoc _ _ _
  rw [hmarked, List.length_append, List.length_singleton] at hdrop
  have hcount := digitsFrom?_front ((hfront.append hone).append hsign) (signAtFront rest).2
  rw [List.append_assoc _ (signAtFront rest).1, signAtFront_append_eq, hmarked,
    List.length_append, List.length_append, List.length_singleton] at hcount
  rw [exponentEnd?, if_pos hbytes, hdrop, signEnd_eq]
  dsimp only
  have hexponent : exponentAtFront (mark :: rest) =
      if (splitDigits (signAtFront rest).2).1.isEmpty then []
      else mark :: (signAtFront rest).1 ++ (splitDigits (signAtFront rest).2).1 :=
    if_pos (by simpa using hmark)
  rw [hcount, Option.bind_eq_bind, Option.bind_some, hexponent]
  by_cases hnone : (splitDigits (signAtFront rest).2).1 = []
  · rw [hnone]
    simp
  · rw [if_neg (by simpa using hnone), if_neg (by simpa using hnone), Option.pure_def]
    simp only [List.length_append, List.length_cons]
    congr 1
    omega

theorem exponentEnd?_eq (hfront : OneByteEach front) (after : List Char) :
    exponentEnd? (utf8 (front ++ after)) front.length =
      some (front ++ exponentAtFront after).length := by
  by_cases hmark : after.head? = some 'e' ∨ after.head? = some 'E'
  · rcases hmark with hmark | hmark
    · obtain ⟨rest, rfl⟩ := List.head?_eq_some_iff.mp hmark
      exact exponentEnd?_marked hfront (Or.inl rfl) rest
    · obtain ⟨rest, rfl⟩ := List.head?_eq_some_iff.mp hmark
      exact exponentEnd?_marked hfront (Or.inr rfl) rest
  · have hnone : exponentAtFront after = [] := by
      unfold exponentAtFront
      split
      · next c rest =>
          rw [List.head?_cons, Option.some.injEq, Option.some.injEq] at hmark
          exact if_neg (by simpa using hmark)
      · rfl
    rw [exponentEnd?, if_neg, hnone, List.append_nil]
    rwa [Bool.or_eq_true_iff, decide_eq_true_iff, decide_eq_true_iff, byte_iff hfront _ (by decide),
      byte_iff hfront _ (by decide)]

/-! ## The whole -/

theorem minus_iff (text : List Char) :
    (utf8 text)[0]? = some '-'.toUInt8 ↔ (signAtFront text).1 = ['-'] := by
  rw [firstByte_iff (by decide)]
  unfold signAtFront
  split
  · exact ⟨fun _ => rfl, fun _ => rfl⟩
  · constructor
    · intro h
      exact absurd (Option.some.inj h) (by decide)
    · intro h
      exact absurd (List.cons.inj h).1 (by decide)
  · next hminus hplus =>
      constructor
      · intro h
        obtain ⟨rest, rfl⟩ := List.head?_eq_some_iff.mp h
        exact absurd rfl (hminus rest)
      · intro h
        cases h

/-- The scanner never leaves the text and never cuts a character, and it finds the number. -/
theorem scanned?_eq (text : List Char) :
    scanned? (Text.trimStart text) = some (parseFloat text) := by
  rw [parseFloat]
  dsimp only
  generalize Text.trimStart text = t
  have hsign := oneByteEach_of_isNumeralChar (isSign_signAtFront t).isNumeralChar
  have hcut := cutAt?_front hsign (signAtFront t).2
  have hmantissa := mantissaEnd?_eq hsign (signAtFront t).2
  rw [signAtFront_append_eq] at hcut hmantissa
  rw [scanned?, signEnd_eq, hcut, Option.bind_eq_bind, Option.bind_some]
  split
  · exact congrArg some (if_congr (minus_iff t) rfl rfl)
  · obtain ⟨happend, hform⟩ := mantissaAtFront_spec (signAtFront t).2
    rw [hmantissa, Option.bind_eq_bind, Option.bind_some, numeralAtFront?_eq]
    by_cases hempty : (mantissaAtFront (signAtFront t).2).1.isEmpty = true
    · rw [if_pos hempty, if_pos hempty]
      rfl
    · have hdigits := oneByteEach_of_isNumeralChar (hform (by simpa using hempty)).isNumeralChar
      generalize (mantissaAtFront (signAtFront t).2).1 = mantissa at happend hempty hdigits
      generalize (mantissaAtFront (signAtFront t).2).2 = after at happend
      obtain ⟨⟨rest, hrest⟩, hexponent⟩ := exponentAtFront_spec after
      have hfront := hsign.append hdigits
      have hnumeral := hfront.append
        (oneByteEach_of_isNumeralChar (isNumeralChar_of_isExponent hexponent))
      have hend := exponentEnd?_eq hfront after
      have hcut' := cutAt?_front hnumeral rest
      have hbody : (signAtFront t).1 ++ mantissa ++ after = t := by
        rw [List.append_assoc, happend, signAtFront_append_eq]
      rw [hbody] at hend
      rw [List.append_assoc _ _ rest, hrest, hbody] at hcut'
      rw [if_neg hempty, if_neg hempty]
      dsimp only
      rw [hend, Option.bind_eq_bind, Option.bind_some, hcut', Option.bind_some, List.append_assoc]
      rfl

/-- The word for infinity stands behind the sign that the scanner finds. -/
theorem signAtFront_infinity {sign : List Char} (hsign : IsSign sign)
    (h : sign ++ "Infinity".toList <+: text) :
    (signAtFront text).1 = sign ∧ "Infinity".toList.isPrefixOf (signAtFront text).2 = true := by
  obtain ⟨rest, rfl⟩ := h
  have hword : "Infinity".toList = 'I' :: "nfinity".toList := by decide
  have hnosign : StartsNoSign ("Infinity".toList ++ rest) := by
    rw [hword]
    rintro c ⟨⟩
    decide
  rw [List.append_assoc, signAtFront_append hsign hnosign]
  exact ⟨rfl, List.isPrefixOf_iff_prefix.mpr (List.prefix_append _ _)⟩

/-- **Numbers at the front.** Blanks in front do not count. If the word for infinity follows, with
or without a sign, the answer is that infinity. Otherwise it is the number that the longest numeral
at the front stands for, which is not not-a-number, and not-a-number if there is no numeral. Looking
for the numeral by positions in the bytes gives the same answer: no position is outside of the text
or inside of a character. -/
theorem parseFloat_longest (call : Caller) (text : String) (loc : Syntax.Location) (s : State) :
    let t := Text.trimStart text.toList
    ∃ x, Native.parseFloat.call call [.string text] loc s = .done (.number x) s ∧
      (∀ sign, IsSign sign → sign ++ "Infinity".toList <+: t →
        x = if sign = ['-'] then -Number.infinity else Number.infinity) ∧
      ((∀ sign, IsSign sign → ¬ sign ++ "Infinity".toList <+: t) →
        ((∃ p, p <+: t ∧ IsNumeral p) →
          ∃ p, Longest t p ∧ x = Number.ofText p ∧ (Number.ofText p).isNaN = false) ∧
        (x.isNaN = true ↔ ∀ p, p <+: t → ¬ IsNumeral p)) ∧
      scanned? t = some x := by
  intro t
  refine ⟨parseFloat text.toList, rfl, ?_, ?_, scanned?_eq text.toList⟩
  · intro sign hsign hbegins
    obtain ⟨hsame, hword⟩ := signAtFront_infinity hsign hbegins
    rw [parseFloat]
    dsimp only
    rw [if_pos hword, hsame]
  · intro hno
    have hword : ¬ "Infinity".toList.isPrefixOf (signAtFront t).2 = true := by
      intro hword
      apply hno (signAtFront t).1 (isSign_signAtFront t)
      obtain ⟨rest, hrest⟩ := List.isPrefixOf_iff_prefix.mp hword
      refine ⟨rest, ?_⟩
      rw [List.append_assoc, hrest, signAtFront_append_eq]
    have hread : parseFloat text.toList =
        ((numeralAtFront? t).map Number.ofText).getD Number.nan := if_neg hword
    rw [hread]
    cases hfound : numeralAtFront? t with
    | none =>
        have hnone := numeralAtFront?_eq_none_iff.mp hfound
        refine ⟨?_, fun _ => hnone, fun _ => rfl⟩
        rintro ⟨p, hbegins, hnumeral⟩
        exact absurd hnumeral (hnone p hbegins)
    | some p =>
        have hlongest := numeralAtFront?_eq_some_iff.mp hfound
        have hnumber := ofText_of_isNumeral hlongest.isNumeral
        refine ⟨fun _ => ⟨p, hlongest, rfl, hnumber⟩, ?_, ?_⟩
        · intro hnan
          exact absurd (hnumber.symm.trans hnan) Bool.false_ne_true
        · intro hnone
          exact absurd hlongest.isNumeral (hnone p hlongest.isPrefix)

/-- A point that digits only follow, and the mark of an exponent without digits. -/
theorem parseFloat_longest_without_exponent :
    let t := Text.trimStart " -.5e+é".toList
    (∀ sign, IsSign sign → ¬ sign ++ "Infinity".toList <+: t) ∧ (∃ p, p <+: t ∧ IsNumeral p) ∧
      ∃ x, Native.parseFloat.call (callWithin [] 0) [.string " -.5e+é"] ⟨1, 9⟩ .initial =
          .done (.number x) .initial ∧
        Longest t "-.5".toList ∧ x = Number.ofText "-.5".toList ∧ scanned? t = some x := by
  intro t
  have hno (sign : List Char) (hsign : IsSign sign) : ¬ sign ++ "Infinity".toList <+: t := by
    rcases hsign with rfl | rfl | rfl
    · decide
    · decide
    · decide
  have hnumeral : IsNumeral (['-'] ++ (['.', '5'] ++ [])) :=
    .of (Or.inr (Or.inr rfl))
      (.places (List.cons_ne_nil _ _) (List.forall_mem_singleton.mpr (by decide))) (Or.inl rfl)
  have hsome : ∃ p, p <+: t ∧ IsNumeral p := ⟨_, by decide, hnumeral⟩
  obtain ⟨x, hcall, -, hread, hscan⟩ :=
    parseFloat_longest (callWithin [] 0) " -.5e+é" ⟨1, 9⟩ .initial
  obtain ⟨p, hlongest, hx, -⟩ := (hread hno).1 hsome
  have hfound : numeralAtFront? t = some "-.5".toList := by decide
  rw [numeralAtFront?_eq_some_iff.mpr hlongest] at hfound
  obtain rfl := Option.some.inj hfound
  exact ⟨hno, hsome, x, hcall, hlongest, hx, hscan⟩

end StepTrace.Builtin
