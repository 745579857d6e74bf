import StepTrace.Proofs.ScannedPieces
import StepTrace.Syntax.Parser

/-!
# Texts that are put together

Where a text is put together from parts, its tokens are put together from the tokens of the parts
if no token and no comment goes on from one part to the next. Behind a name that is so if no other
part of a name follows (`tokensFrom_identifier`). A newline keeps two lines apart if the second one
has no quote and no star: then a text literal or a comment that is open at the newline is never
closed, and there are no tokens at all (`exists_tokens_line`).

* `IsIdentifier`: the names of the host language.
-/

namespace StepTrace.Syntax

open Capture Text

/-! ## Names -/

/-- A name of the host language. -/
structure IsIdentifier (word : List Char) : Prop where
  start : ∃ c rest, word = c :: rest ∧ isNameStart c = true
  part : ∀ c ∈ word, isNamePart c = true
  plain : Keyword.ofText? (String.ofList word) = none

instance (word : List Char) : Decidable (IsIdentifier word) :=
  decidable_of_iff
    ((word.head?.any isNameStart = true ∧ word.all isNamePart = true) ∧
      Keyword.ofText? (String.ofList word) = none) <| by
    constructor
    · rintro ⟨⟨hstart, hpart⟩, hplain⟩
      refine ⟨?_, List.all_eq_true.mp hpart, hplain⟩
      cases word with
      | nil => cases hstart
      | cons c rest => exact ⟨c, rest, rfl, hstart⟩
    · rintro ⟨⟨c, rest, rfl, hstart⟩, hpart, hplain⟩
      exact ⟨⟨hstart, List.all_eq_true.mpr hpart⟩, hplain⟩

variable {left : Nat} {l : Location} {word rest : List Char} {others : List Token}

theorem IsIdentifier.not_mem (h : IsIdentifier word) {c : Char} (hc : isNamePart c = false) :
    c ∉ word := by
  intro hmem
  rw [h.part c hmem] at hc
  cases hc

theorem tokensFrom_cons {l' : Location} {text : List Char} {c : Char} {found : Lexeme}
    (hgap : skipGap .open l text = .ok (l', c :: rest)) (hfound : lexeme c rest = .ok found)
    (hothers : tokensFrom left (l'.after found.text) found.rest = .ok others) :
    tokensFrom (left + 1) l text = .ok (⟨found.kind, l'⟩ :: others) := by
  rw [tokensFrom, hgap]
  simp only [Bind.bind, Except.bind, hfound, hothers]

theorem tokensFrom_identifier (h : IsIdentifier word) (hrest : rest.head?.any isNamePart = false)
    (hothers : tokensFrom left (l.after word) rest = .ok others) :
    tokensFrom (left + 1) l (word ++ rest) = .ok (⟨.name (String.ofList word), l⟩ :: others) := by
  obtain ⟨c, more, rfl, hc⟩ := h.start
  have hslash : c ≠ '/' := by
    rintro rfl
    exact absurd hc (by decide)
  have hgap : skipGap .open l (c :: (more ++ rest)) = .ok (l, c :: (more ++ rest)) :=
    skipGap_none (not_blank_of_isNamePart (isNamePart_of_isNameStart hc))
      fun heq => absurd heq hslash
  have htake : (c :: (more ++ rest)).takeWhile isNamePart = c :: more := by
    rw [← List.cons_append, List.takeWhile_append_of_pos h.part]
    cases rest with
    | nil => simp
    | cons d rest =>
        have hd : isNamePart d = false := hrest
        simp [hd]
  have hdrop : (c :: (more ++ rest)).dropWhile isNamePart = rest := by
    have hwhole := List.takeWhile_append_dropWhile (p := isNamePart) (l := c :: (more ++ rest))
    rw [htake, List.cons_append] at hwhole
    exact List.append_cancel_left (List.cons.inj hwhole).2
  have hfound : lexeme c (more ++ rest) =
      .ok ⟨.name (String.ofList (c :: more)), c :: more, rest⟩ := by
    rw [lexeme_nameStart hc, wordLexeme, htake, hdrop, h.plain]
  exact tokensFrom_cons hgap hfound hothers

/-- On one line, a place is known by its column. -/
theorem exists_column_after (h : IsIdentifier word) (column : Nat) :
    ∃ column', Location.after ⟨1, column⟩ word = ⟨1, column'⟩ := by
  have hline : (Location.after ⟨1, column⟩ word).line = 1 :=
    Location.line_after (h.not_mem (by decide)) ⟨1, column⟩
  refine ⟨(Location.after ⟨1, column⟩ word).column, ?_⟩
  generalize Location.after ⟨1, column⟩ word = l at hline
  obtain ⟨line, column⟩ := l
  exact congrArg (Location.mk · column) hline

/-- A blank before a token takes no token. -/
theorem tokensFrom_blank {c : Char} (hc : isBlank c = true) (left : Nat) (l : Location)
    (text : List Char) :
    tokensFrom (left + 1) l (c :: text) = tokensFrom (left + 1) (l.next c) text := by
  rw [tokensFrom, tokensFrom, skipGap_blank hc]

theorem parse_of_tokensFrom {text : List Char} {tokens : List Token}
    (h : tokensFrom (text.length + 1) ⟨1, 1⟩ text = .ok tokens) :
    parse (String.ofList text) = parseTokens tokens := by
  unfold parse tokenize
  rw [String.toList_ofList, h]
  rfl

/-! ## Lines -/

/-- A line behind which nothing that is open before it is closed: it begins with a token, and it
has no quote and no star. -/
structure StandsAlone (line : List Char) : Prop where
  start : ∀ l, skipGap .open l line = .ok (l, line)
  quote : ∀ c ∈ line, ¬ IsQuote c
  star : '*' ∉ line

theorem skipGap_block {start : Location} {text : List Char} (h : '*' ∉ text) (l : Location) :
    skipGap (.block start) l text = .error ⟨.unterminatedComment, start⟩ := by
  generalize hmode : GapMode.block start = mode
  fun_induction skipGap mode l text with
  | case7 start' l text ih => exact absurd List.mem_cons_self h
  | case8 start' l c text _ ih =>
      cases hmode
      exact ih (fun hmem => h (List.mem_cons_of_mem _ hmem)) rfl
  | case11 start' l =>
      cases hmode
      rfl
  | _ => cases hmode

variable {front line text : List Char} {c : Char} {found : Lexeme}

/-- The first character of a text with a newline is the newline or stands before it. -/
theorem split_newline (h : front ++ '\n' :: line = c :: text) :
    (c = '\n' ∧ text = line) ∨ ∃ front', front' ++ '\n' :: line = text := by
  rcases List.append_eq_cons_iff.mp h with ⟨-, heq⟩ | ⟨front', -, rfl⟩
  · cases heq
    exact Or.inl ⟨rfl, rfl⟩
  · exact Or.inr ⟨front', rfl⟩

/-- A gap that begins before the newline ends before it or at the line behind it. -/
theorem exists_of_skipGap {mode : GapMode} {l' : Location} (hline : StandsAlone line)
    (h : skipGap mode l (front ++ '\n' :: line) = .ok (l', rest)) :
    (∃ front', front' ++ '\n' :: line = rest) ∨ rest = line := by
  have hopen {l : Location} (h : skipGap .open l line = .ok (l', rest)) : rest = line := by
    rw [hline.start] at h
    cases h
    rfl
  have hmark {front text : List Char} {c : Char} (hc : c ≠ '\n')
      (htext : front ++ '\n' :: line = c :: text) : ∃ front', front' ++ '\n' :: line = text :=
    (split_newline htext).resolve_left fun hnewline => hc hnewline.1
  generalize htext : front ++ '\n' :: line = text at h
  fun_induction skipGap mode l text generalizing front with
  | case1 l text ih =>
      obtain ⟨front', htext⟩ := hmark (by decide) htext
      obtain ⟨front', htext⟩ := hmark (by decide) htext
      exact ih htext h
  | case2 l text ih =>
      obtain ⟨front', htext⟩ := hmark (by decide) htext
      obtain ⟨front', htext⟩ := hmark (by decide) htext
      exact ih htext h
  | case3 l c text _ _ hblank ih =>
      rcases split_newline htext with ⟨-, rfl⟩ | ⟨front', htext⟩
      · exact Or.inr (hopen h)
      · exact ih htext h
  | case4 l c text _ _ hblank =>
      cases h
      exact Or.inl ⟨front, htext⟩
  | case5 l text ih =>
      rcases split_newline htext with ⟨-, rfl⟩ | ⟨front', htext⟩
      · exact Or.inr (hopen h)
      · exact ih htext h
  | case6 l c text hc ih =>
      obtain ⟨front', htext⟩ := hmark hc htext
      exact ih htext h
  | case7 start l text ih =>
      obtain ⟨front', htext⟩ := hmark (by decide) htext
      obtain ⟨front', htext⟩ := hmark (by decide) htext
      exact ih htext h
  | case8 start l c text _ ih =>
      rcases split_newline htext with ⟨-, rfl⟩ | ⟨front', htext⟩
      · rw [skipGap_block hline.star] at h
        cases h
      · exact ih htext h
  | case9 l => exact absurd htext (by simp)
  | case10 l => exact absurd htext (by simp)
  | case11 start l => cases h

/-- Only a text literal has a newline, and it ends with its quote. -/
theorem exists_quote_of_newline (h : lexeme c rest = .ok found) (hnewline : '\n' ∈ found.text) :
    ∃ quote, found.text.getLast? = some quote ∧ IsQuote quote := by
  unfold lexeme at h
  split at h
  · rename_i hquote
    split at h
    · rename_i value text after hbody
      cases h
      exact ⟨c, (stringBody_parts hbody).2, by simpa [IsQuote] using hquote⟩
    · cases h
  · split at h
    · rename_i hstart
      have hline : c ≠ '\n' := by
        rintro rfl
        simp at hstart
      exact absurd hnewline (numberLexeme_isNumeral hline h).parts.oneLine
    · split at h
      · cases h
        have hpart : isNamePart '\n' = true := List.mem_takeWhile_imp hnewline
        cases hpart
      · split at h
        · rename_i found' hfound
          cases h
          obtain ⟨m, heq, -⟩ := symbolLexeme?_text hfound
          have hnone : '\n' ∉ m.text.toList := by cases m <;> decide
          rw [heq] at hnewline
          exact absurd hnewline hnone
        · cases h

/-- A lexeme that begins before the newline ends before it. -/
theorem exists_of_lexeme (hline : StandsAlone line) (htext : front ++ '\n' :: line = c :: rest)
    (h : lexeme c rest = .ok found) : ∃ front', front' ++ '\n' :: line = found.rest := by
  have hparts := lexeme_parts h
  rw [← htext] at hparts
  rcases List.append_eq_append_iff.mp hparts.whole with ⟨more, -, hrest⟩ | ⟨more, hfound, hrest⟩
  · exact ⟨more, hrest.symm⟩
  · cases more with
    | nil => exact ⟨[], hrest⟩
    | cons d more =>
        obtain ⟨rfl, hmore⟩ := List.cons.inj hrest
        have hnewline : '\n' ∈ found.text := by simp [hfound]
        obtain ⟨quote, hlast, hquote⟩ := exists_quote_of_newline h hnewline
        rw [hfound, List.getLast?_append_cons] at hlast
        rcases List.mem_cons.mp (List.mem_of_getLast? hlast) with rfl | hmem
        · exact absurd hquote (by unfold IsQuote; decide)
        · exact absurd hquote (hline.quote quote (by simp [hmore, hmem]))

/-- The tokens of two lines, the second of which stands alone. -/
theorem exists_tokens_line {left : Nat} {tokens : List Token} (hline : StandsAlone line)
    (hne : line ≠ []) (h : tokensFrom left l (front ++ '\n' :: line) = .ok tokens)
    (hleft : (front ++ '\n' :: line).length < left) :
    ∃ before behind left' l', tokens = before ++ behind ∧
      (∀ token ∈ before, token.kind ≠ .endOfInput) ∧ line.length < left' ∧
      tokensFrom left' l' line = .ok behind := by
  induction left generalizing l front tokens with
  | zero => omega
  | succ left ih =>
      obtain ⟨l', text, hgap, hcases⟩ := tokensFrom_succ h
      rcases exists_of_skipGap hline hgap with ⟨front', rfl⟩ | rfl
      · rcases hcases with ⟨hnil, -⟩ | ⟨c, more, found, others, htext, hfound, hothers, rfl⟩
        · exact absurd hnil (by simp)
        · obtain ⟨front'', hrest⟩ := exists_of_lexeme hline htext hfound
          have hshort := length_rest_lt hfound
          have hgap_le := (skipGap_suffix hgap).length_le
          rw [htext] at hgap_le
          rw [← hrest] at hothers hshort
          obtain ⟨before, behind, left', l'', rfl, hends, hlength, hbehind⟩ :=
            ih hothers (by omega)
          refine ⟨⟨found.kind, l'⟩ :: before, behind, left', l'', rfl, ?_, hlength, hbehind⟩
          exact List.forall_mem_cons.mpr ⟨lexeme_ne_endOfInput hfound, hends⟩
      · refine ⟨[], tokens, left + 1, l', rfl, List.forall_mem_nil _, ?_, ?_⟩
        · simp only [List.length_append, List.length_cons] at hleft
          omega
        · rw [tokensFrom, hline.start]
          rw [tokensFrom, hgap] at h
          exact h

end StepTrace.Syntax
