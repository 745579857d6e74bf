import StepTrace.Proofs.LineScan
import StepTrace.Proofs.Numerals

/-!
# The scan over gaps

Lexer and scan read the same text, the one by lexemes and the other by characters and lines.
Between two lexemes both pass over blanks and comments: a scan that stands in code in front of
a gap stands in code behind it (`kindsAhead_skipGap`), and what is known of it from line to
line holds there as well. The lexer knows ASCII words only and the scan knows all letters, so
where their words end together is settled here too.

* `Scan.Settled`: the scan stands where a gap or a lexeme may begin.
* `Tracked`: what is known of the scan settles the kinds of the lines up to the end of the gap.
-/

namespace StepTrace.Capture

open Text Syntax

variable {before s s' : Scan} {c : Char} {front rest text : List Char}

/-! ## Characters -/

theorem isWordPart_of_ascii (h : c.toNat < 0x80) : isWordPart c = isNamePart c := by
  simp [isWordPart, isLetterOrNumeral, h, isNamePart]

theorem isWordStart_of_ascii (h : c.toNat < 0x80) : isWordStart c = isNameStart c := by
  simp [isWordStart, isLetter, h, isNameStart]

theorem ascii_of_isNamePart (h : isNamePart c = true) : c.toNat < 0x80 := by
  simp only [isNamePart, Bool.or_eq_true, isAlphanum_iff, beq_iff_eq] at h
  rcases h with (h | rfl) | rfl
  · omega
  · decide
  · decide

theorem isWordPart_of_isNamePart (h : isNamePart c = true) : isWordPart c = true := by
  rw [isWordPart_of_ascii (ascii_of_isNamePart h), h]

theorem isNamePart_of_isDigit (h : c.isDigit = true) : isNamePart c = true := by
  simp [isNamePart, Char.isAlphanum, h]

theorem isWordPart_of_isWordStart (h : isWordStart c = true) : isWordPart c = true := by
  simp only [isWordStart, isWordPart, Bool.or_eq_true] at h ⊢
  refine h.imp_left (Or.imp_left fun hletter => ?_)
  unfold isLetter at hletter
  unfold isLetterOrNumeral
  split at hletter
  · simp_all [Char.isAlphanum]
  · simp_all

/-- The blanks above ASCII. -/
def wideBlanks : List Nat :=
  [0x85, 0xa0, 0x1680, 0x2000, 0x2001, 0x2002, 0x2003, 0x2004, 0x2005, 0x2006, 0x2007, 0x2008,
    0x2009, 0x200a, 0x2028, 0x2029, 0x202f, 0x205f, 0x3000]

theorem mem_wideBlanks (h : isBlank c = true) (hascii : ¬ c.toNat < 0x80) :
    c.toNat ∈ wideBlanks := by
  simp only [isBlank, Bool.or_eq_true, Bool.and_eq_true, decide_eq_true_eq, beq_iff_eq] at h
  simp only [wideBlanks, List.mem_cons, List.not_mem_nil, or_false]
  omega

/-- A blank is no part of a word. -/
theorem isWordPart_of_isBlank (h : isBlank c = true) : isWordPart c = false := by
  by_cases hascii : c.toNat < 0x80
  · rw [isWordPart_of_ascii hascii]
    exact isWordMark_of_isBlank h
  · have hranges : (wideBlanks.all fun n =>
        ! inRanges letterRanges n && ! inRanges numeralRanges n) = true := by
      decide +kernel
    obtain ⟨hletter, hnumeral⟩ : inRanges letterRanges c.toNat = false ∧
        inRanges numeralRanges c.toNat = false := by
      simpa using List.all_eq_true.mp hranges _ (mem_wideBlanks h hascii)
    have hmark : c ≠ '_' ∧ c ≠ '$' := by
      constructor <;> rintro rfl <;> exact hascii (by decide)
    simp [isWordPart, isLetterOrNumeral, hascii, hletter, hnumeral, hmark]

/-! ## Settled states -/

/-- The state without the part of the text it is inside of and without the mark of a comment. -/
def Scan.bare (s : Scan) : Scan :=
  { s with inside := .code, sawComment := false }

/-- The scan stands where a gap or a lexeme may begin: in code, or behind a word of the line. -/
def Scan.Settled (s : Scan) : Prop :=
  s.inside = .code ∨ (s.inside = .word ∧ s.sawCode = true)

/-- The scan in front of the one text comes to stand in front of the other on the same line. -/
def Scans (s : Scan) (text : List Char) (s' : Scan) (rest : List Char) : Prop :=
  ∀ before, kindsAhead before s text = kindsAhead before s' rest

namespace Scans

theorem refl (s : Scan) (text : List Char) : Scans s text s text := fun _ => rfl

theorem trans {s₁ s₂ s₃ : Scan} {text₁ text₂ text₃ : List Char} (h : Scans s₁ text₁ s₂ text₂)
    (h' : Scans s₂ text₂ s₃ text₃) : Scans s₁ text₁ s₃ text₃ :=
  fun before => (h before).trans (h' before)

theorem char (hc : c ≠ '\n') (hr : startsReturn (c :: rest) = false)
    (h : s.char c (lineOf rest) = (s', 0)) : Scans s (c :: rest) s' rest :=
  fun _ => kindsAhead_char hc hr h

end Scans

theorem ne_newline_of_not_blank (h : isBlank c = false) : c ≠ '\n' := by
  rintro rfl
  simp [isBlank] at h

/-- The first character of a text is the first one of its line, unless the line ends there. -/
theorem lineOf_cons_cases (c : Char) (rest : List Char) :
    (lineOf (c :: rest) = [] ∧ isBlank c = true) ∨ lineOf (c :: rest) = c :: lineOf rest := by
  by_cases hc : c = '\n'
  · subst hc
    exact Or.inl ⟨lineOf_newline rest, by decide⟩
  · cases hr : startsReturn (c :: rest) with
    | false => exact Or.inr (lineOf_cons hc hr)
    | true =>
        unfold startsReturn at hr
        split at hr
        · rename_i heq
          cases heq
          exact Or.inl ⟨lineOf_return _, by decide⟩
        · cases hr

theorem head?_lineOf (hc : isBlank c = false) :
    (lineOf rest).head? = some c ↔ rest.head? = some c := by
  cases rest with
  | nil => rfl
  | cons d rest =>
      rcases lineOf_cons_cases d rest with ⟨hnil, hblank⟩ | hcons
      · rw [hnil, List.head?_nil, List.head?_cons, Option.some_inj]
        refine ⟨nofun, ?_⟩
        rintro rfl
        simp [hblank] at hc
      · rw [hcons, List.head?_cons, List.head?_cons]

theorem settled_of_code (h : s.inside = .code) : s.Settled :=
  Or.inl h

/-- A settled scan takes a character that does not go on a word for code. -/
theorem char_of_settled (hs : s.Settled) (hc : s.inside = .word → isWordPart c = false) :
    s.char c rest = ({ s with inside := .code } : Scan).code c rest := by
  rcases hs with hs | ⟨hs, -⟩
  · have heq : ({ s with inside := .code } : Scan) = s := by rw [← hs]
    rw [heq, Scan.char, hs]
  · rw [Scan.char, hs]
    simp [hc hs]

/-! ## Gaps -/

/-- The property holds of the kinds of the lines from the one with the number on. -/
def EachLine (Right : Nat → LineKind → Prop) : Nat → List LineKind → Prop
  | _, [] => True
  | n, kind :: kinds => Right n kind ∧ EachLine Right (n + 1) kinds

/-- What the scan is inside of while the lexer skips a gap. -/
def InGap : GapMode → Scan → Prop
  | .open, s => s.Settled
  | .line, s => s.inside = .lineComment
  | .block _, s => s.inside = .comment

/-- What is known of the scan on each line does not depend on comments; as long as the last line
has not been reached, it settles the kind of the line and is known of the next one. -/
structure Tracked (Right : Nat → LineKind → Prop) (last : Nat)
    (Inv : Nat → Scan → Scan → Prop) : Prop where
  marks : ∀ {n before s s'}, Inv n before s → s'.bare = s.bare → Inv n before s'
  next : ∀ {n before s}, n < last → Inv n before s →
    Right n (kindOf before s) ∧ Inv (n + 1) s.nextLine s.nextLine

theorem line_next (hc : c ≠ '\n') (l : Location) : (l.next c).line = l.line := by
  rw [Location.next, if_neg hc]

section Gap

variable {Right : Nat → LineKind → Prop} {Inv : Nat → Scan → Scan → Prop} {last : Nat}

/-- The gap takes the scan to its end: what is known of the scan is known there, and if the
lines are right from there on, they are right from the start. Behind a gap the scan is inside
of a word only if there is no gap. -/
def Skips (Right : Nat → LineKind → Prop) (Inv : Nat → Scan → Scan → Prop) (before s : Scan)
    (l : Location) (text : List Char) (l' : Location) (rest : List Char) : Prop :=
  ∃ before' s', Inv l'.line before' s' ∧ s'.Settled ∧
    (s'.inside = .word → rest.takeWhile isNamePart = [] ∨
      (s.inside = .word ∧ l' = l ∧ rest = text)) ∧
    (EachLine Right l'.line (kindsAhead before' s' rest) →
      EachLine Right l.line (kindsAhead before s text))

/-- The scan goes over a character that the lexer skips. -/
theorem Skips.char {l l' : Location} (hc : c ≠ '\n') (hr : startsReturn (c :: text) = false)
    (hchar : s.char c (lineOf text) = (s', 0)) (hinside : s'.inside ≠ .word)
    (h : Skips Right Inv before s' (l.next c) text l' rest) :
    Skips Right Inv before s l (c :: text) l' rest := by
  obtain ⟨before', s'', hinv, hsettled, hword, hlines⟩ := h
  refine ⟨before', s'', hinv, hsettled, fun hw => ?_, fun heach => ?_⟩
  · exact (hword hw).imp_right fun h => absurd h.1 hinside
  · rw [kindsAhead_char hc hr hchar, ← line_next hc l]
    exact hlines heach

theorem Skips.newline {l l' : Location} (ht : Tracked Right last Inv) (hline : l.line < last)
    (hinv : Inv l.line before s) (hinside : s.nextLine.inside ≠ .word)
    (h : Skips Right Inv s.nextLine s.nextLine (l.next '\n') text l' rest) :
    Skips Right Inv before s l ('\n' :: text) l' rest := by
  obtain ⟨before', s', hinv', hsettled, hword, hlines⟩ := h
  refine ⟨before', s', hinv', hsettled, fun hw => ?_, fun heach => ?_⟩
  · exact (hword hw).imp_right fun h => absurd h.1 hinside
  · rw [kindsAhead_newline]
    exact ⟨(ht.next hline hinv).1, hlines heach⟩

theorem Skips.return {l l' : Location} (hc : c ≠ '\n') (hr : startsReturn (c :: text) = true)
    (h : Skips Right Inv before s (l.next c) text l' rest) :
    Skips Right Inv before s l (c :: text) l' rest := by
  obtain ⟨before', s', hinv, hsettled, hword, hlines⟩ := h
  refine ⟨before', s', hinv, hsettled, fun hw => ?_, fun heach => ?_⟩
  · refine Or.inl ((hword hw).elim id ?_)
    rintro ⟨-, -, rfl⟩
    unfold startsReturn at hr
    split at hr
    · rename_i heq
      cases heq
      rfl
    · cases hr
  · rw [kindsAhead_return before s hr, ← line_next hc l]
    exact hlines heach

theorem Skips.pair {l l' : Location} {d : Char} (hc : isBlank c = false) (hd : isBlank d = false)
    (hchar : s.char c (lineOf (d :: text)) = (s', 1)) (hinside : s'.inside ≠ .word)
    (h : Skips Right Inv before s' ((l.next c).next d) text l' rest) :
    Skips Right Inv before s l (c :: d :: text) l' rest := by
  have hcline := ne_newline_of_not_blank hc
  have hdline := ne_newline_of_not_blank hd
  obtain ⟨before', s'', hinv, hsettled, hword, hlines⟩ := h
  refine ⟨before', s'', hinv, hsettled, fun hw => ?_, fun heach => ?_⟩
  · exact (hword hw).imp_right fun h => absurd h.1 hinside
  · rw [kindsAhead_pair hcline (startsReturn_of_not_blank hc) hdline
      (startsReturn_of_not_blank hd) hchar, ← line_next hcline l, ← line_next hdline]
    exact hlines heach

/-- At the end of the text the scan may be taken to stand in code. -/
theorem Skips.nil {l : Location} (ht : Tracked Right last Inv) (hinv : Inv l.line before s) :
    Skips Right Inv before s l [] l [] :=
  ⟨before, { s with inside := .code }, ht.marks hinv rfl, Or.inl rfl, nofun, id⟩

theorem char_slash (hs : s.Settled) (h : rest.head? = some '/') :
    s.char '/' rest = ({ s with inside := .lineComment, sawComment := true }, 0) := by
  rw [char_of_settled hs fun _ => by decide, Scan.code]
  simp [h]

theorem char_star (hs : s.Settled) (h : rest.head? = some '*') :
    s.char '/' rest = ({ s with inside := .comment, sawComment := true }, 1) := by
  rw [char_of_settled hs fun _ => by decide, Scan.code]
  simp [h]

theorem char_blank (hs : s.Settled) (hc : isBlank c = true) :
    s.char c rest = ({ s with inside := .code }, 0) := by
  have hslash : c ≠ '/' := by
    rintro rfl
    simp [isBlank] at hc
  rw [char_of_settled hs fun _ => isWordPart_of_isBlank hc, Scan.code]
  simp [hslash, hc]

/-- The scan follows the lexer over a gap. -/
theorem kindsAhead_skipGap {mode : GapMode} {l l' : Location}
    (h : skipGap mode l text = .ok (l', rest)) (ht : Tracked Right l'.line Inv)
    (hin : InGap mode s) (hinv : Inv l.line before s) :
    Skips Right Inv before s l text l' rest := by
  fun_induction skipGap mode l text generalizing before s with
  | case1 l text ih =>
      have hs : s.Settled := hin
      have hbody : Skips Right Inv before { s with inside := .lineComment, sawComment := true }
          ((l.next '/').next '/') text l' rest :=
        ih h rfl (ht.marks hinv rfl)
      refine Skips.char (by decide) (startsReturn_of_not_blank (by decide))
        (char_slash hs ((head?_lineOf (by decide)).mpr rfl)) (by simp) ?_
      exact Skips.char (by decide) (startsReturn_of_not_blank (by decide)) rfl (by simp) hbody
  | case2 l text ih =>
      have hs : s.Settled := hin
      exact Skips.pair (by decide) (by decide)
        (char_star hs ((head?_lineOf (by decide)).mpr rfl)) (by simp)
        (ih h rfl (ht.marks hinv rfl))
  | case3 l c text _ _ hblank ih =>
      have hs : s.Settled := hin
      by_cases hc : c = '\n'
      · subst hc
        have hline : l.line < l'.line := line_le_of_skipGap h
        have hinside : s.nextLine.inside = .code := by
          rcases hs with hs | ⟨hs, -⟩ <;> rw [Scan.nextLine, hs]
        exact Skips.newline ht hline hinv (by simp [hinside])
          (ih h (settled_of_code hinside) (ht.next hline hinv).2)
      · have hinv' : Inv (l.next c).line before s := by rwa [line_next hc]
        cases hr : startsReturn (c :: text) with
        | true => exact Skips.return hc hr (ih h hs hinv')
        | false =>
            exact Skips.char hc hr (char_blank hs hblank) (by simp)
              (ih h (Or.inl rfl) (ht.marks hinv' rfl))
  | case4 l c text _ _ _ =>
      cases h
      exact ⟨before, s, hinv, hin, fun hw => Or.inr ⟨hw, rfl, rfl⟩, id⟩
  | case5 l text ih =>
      have hs : s.inside = .lineComment := hin
      have hline : l.line < l'.line := line_le_of_skipGap h
      have hinside : s.nextLine.inside = .code := by rw [Scan.nextLine, hs]
      exact Skips.newline ht hline hinv (by simp [hinside])
        (ih h (settled_of_code hinside) (ht.next hline hinv).2)
  | case6 l c text hc ih =>
      have hs : s.inside = .lineComment := hin
      have hinv' : Inv (l.next c).line before s := by rwa [line_next hc]
      cases hr : startsReturn (c :: text) with
      | true => exact Skips.return hc hr (ih h hin hinv')
      | false => exact Skips.char hc hr (by rw [Scan.char, hs]) (by simp [hs]) (ih h hin hinv')
  | case7 start l text ih =>
      have hs : s.inside = .comment := hin
      have hchar : s.char '*' (lineOf ('/' :: text)) =
          ({ s with inside := .code, sawComment := true }, 1) := by
        have hmark : (lineOf ('/' :: text)).head? = some '/' := (head?_lineOf (by decide)).mpr rfl
        rw [Scan.char, hs]
        simp [hmark]
      exact Skips.pair (by decide) (by decide) hchar (by simp)
        (ih h (Or.inl rfl) (ht.marks hinv rfl))
  | case8 start l c text hmark ih =>
      have hs : s.inside = .comment := hin
      by_cases hc : c = '\n'
      · subst hc
        have hline : l.line < l'.line := line_le_of_skipGap h
        have hinside : s.nextLine.inside = .comment := by rw [Scan.nextLine, hs]
        exact Skips.newline ht hline hinv (by simp [hinside])
          (ih h hinside (ht.next hline hinv).2)
      · have hinv' : Inv (l.next c).line before s := by rwa [line_next hc]
        cases hr : startsReturn (c :: text) with
        | true => exact Skips.return hc hr (ih h hin hinv')
        | false =>
            have hchar : s.char c (lineOf text) = ({ s with sawComment := true }, 0) := by
              have hopen : ¬ (c = '*' ∧ (lineOf text).head? = some '/') := by
                rintro ⟨rfl, hhead⟩
                obtain ⟨behind, rfl⟩ := List.head?_eq_some_iff.mp
                  ((head?_lineOf (by decide)).mp hhead)
                exact hmark behind rfl rfl
              rw [Scan.char, hs]
              simp only [Bool.and_eq_true, decide_eq_true_eq, if_neg hopen]
            exact Skips.char hc hr hchar (by simp [hs]) (ih h hs (ht.marks hinv' rfl))
  | case9 l =>
      cases h
      exact Skips.nil ht hinv
  | case10 l =>
      cases h
      exact Skips.nil ht hinv
  | case11 start l => cases h

end Gap

end StepTrace.Capture
