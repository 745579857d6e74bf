import Mathlib.Data.List.Chain
import Mathlib.Data.List.TakeWhile
import StepTrace.Capture.Candidates
import StepTrace.Proofs.Numerals

/-!
# Names and words

The candidates of a step are found by a search for words that knows nothing of tokens, so
comments and texts have candidates too. What counts is the other direction: every name that
the lexer finds is a whole word (`isChain_tokenize`), except where a name follows a numeral
with nothing between the two, as in `3x`, which is one word. Such a name stands on the line
of the numeral, and that is all that a parser needs to tell the two apart (`Adjacent`).

* `Written`: the words of a text that may be names.
* `mem_candidates`: the candidates are the written names that are not reserved.
-/

namespace StepTrace

namespace Capture

/-- The text has the word, which does not start with a digit. -/
def Written (source x : String) : Prop :=
  x.toList ∈ wordsAfter [] source.toList ∧ x.toList.head?.any Char.isDigit = false

/-! ## Candidates -/

theorem mem_eraseReps_loop {α : Type} [BEq α] [LawfulBEq α] (x a : α) (xs kept : List α) :
    x ∈ List.eraseRepsBy.loop (· == ·) a xs kept ↔ x ∈ a :: xs ∨ x ∈ kept := by
  induction xs generalizing a kept with
  | nil => simp [List.eraseRepsBy.loop, or_comm]
  | cons b rest ih =>
      rw [List.eraseRepsBy.loop]
      split
      · rename_i hab
        have heq : a = b := by simpa using hab
        subst heq
        rw [ih]
        simp
      · rw [ih]
        simp only [List.mem_cons]
        constructor
        · rintro (h | h | h)
          · exact Or.inl (Or.inr h)
          · exact Or.inl (Or.inl h)
          · exact Or.inr h
        · rintro ((h | h) | h)
          · exact Or.inr (Or.inl h)
          · exact Or.inl h
          · exact Or.inr (Or.inr h)

theorem mem_eraseReps {α : Type} [BEq α] [LawfulBEq α] (x : α) (xs : List α) :
    x ∈ xs.eraseReps ↔ x ∈ xs := by
  cases xs with
  | nil => exact Iff.rfl
  | cons a rest =>
      have h := mem_eraseReps_loop x a rest []
      simpa [List.eraseReps, List.eraseRepsBy] using h

/-- Every name of the text is a candidate unless it is reserved, and there are no others. -/
theorem mem_candidates (source x : String) :
    x ∈ candidates source ↔ Written source x ∧ x ∉ reserved := by
  rw [candidates, ordered, mem_eraseReps, List.mem_mergeSort, List.mem_map]
  constructor
  · rintro ⟨word, hword, rfl⟩
    obtain ⟨hmem, hcandidate⟩ := List.mem_filter.mp hword
    simp only [isCandidate, Bool.and_eq_true, Bool.not_eq_true', List.contains_eq_mem,
      decide_eq_false_iff_not] at hcandidate
    refine ⟨⟨?_, ?_⟩, hcandidate.2⟩
    · rwa [String.toList_ofList]
    · rw [String.toList_ofList]
      exact hcandidate.1
  · rintro ⟨⟨hmem, hhead⟩, hreserved⟩
    refine ⟨x.toList, List.mem_filter.mpr ⟨hmem, ?_⟩, String.ofList_toList⟩
    simp only [isCandidate, Bool.and_eq_true, Bool.not_eq_true', List.contains_eq_mem,
      decide_eq_false_iff_not, String.ofList_toList]
    exact ⟨hhead, hreserved⟩

/-! ## Words -/

/-- A word cannot go on behind the text. -/
def Clear (front : List Char) : Prop :=
  ∀ c ∈ front.getLast?, isWordMark c = false

theorem Clear.append {text : List Char} (h : Clear text) (hne : text ≠ []) (front : List Char) :
    Clear (front ++ text) := by
  intro c hc
  rw [List.getLast?_append_of_ne_nil _ hne] at hc
  exact h c hc

/-- The words behind a place where no word can go on are words of the whole text. -/
theorem mem_wordsAfter_append {front rest word : List Char} (hclear : Clear front)
    (hword : word ∈ wordsAfter [] rest) {run : List Char} (hrun : front = [] → run = []) :
    word ∈ wordsAfter run (front ++ rest) := by
  induction front generalizing run with
  | nil =>
      rw [hrun rfl]
      exact hword
  | cons c front ih =>
      have htail : Clear front := by
        cases front with
        | nil => simp [Clear]
        | cons d front => exact fun x hx => hclear x hx
      rw [List.cons_append, wordsAfter]
      cases hmark : isWordMark c with
      | true =>
          refine ih htail ?_
          rintro rfl
          exact absurd (hclear c rfl) (by simp [hmark])
      | false =>
          have hmem : word ∈ wordsAfter [] (front ++ rest) := ih htail fun _ => rfl
          simp only [Bool.false_eq_true, if_false]
          split
          · exact hmem
          · exact List.mem_cons_of_mem _ hmem

/-- A word that has begun ends with the marks that follow. -/
theorem takeWhile_mem_wordsAfter {run : List Char} (hrun : run ≠ []) (rest : List Char) :
    run.reverse ++ rest.takeWhile isWordMark ∈ wordsAfter run rest := by
  induction rest generalizing run with
  | nil => simp [wordsAfter, hrun]
  | cons c rest ih =>
      rw [wordsAfter, List.takeWhile_cons]
      cases isWordMark c with
      | true =>
          have h := ih (List.cons_ne_nil c run)
          simpa using h
      | false => simp [hrun]

end Capture

namespace Syntax

open Capture

/-! ## Gaps -/

theorem isWordMark_of_isBlank {c : Char} (h : Text.isBlank c = true) : isWordMark c = false := by
  cases hmark : isWordMark c with
  | false => rfl
  | true =>
      simp only [isWordMark, Bool.or_eq_true, isAlphanum_iff, beq_iff_eq] at hmark
      simp only [Text.isBlank, Bool.or_eq_true, Bool.and_eq_true, decide_eq_true_eq,
        beq_iff_eq] at h
      rcases hmark with (hmark | rfl) | rfl
      · omega
      · simp at h
      · simp at h

theorem clear_singleton {c : Char} (h : isWordMark c = false) : Clear [c] := by
  rintro d ⟨⟩
  exact h

/-- Where a gap ends no word goes on, unless there is no gap or no text behind it. -/
theorem skipGap_clear {mode : GapMode} {l l' : Location} {text rest : List Char}
    (h : skipGap mode l text = .ok (l', rest)) (front : List Char) :
    (mode = .open ∧ l' = l ∧ rest = text) ∨
      ∃ front', front ++ text = front' ++ rest ∧ (rest ≠ [] → Clear front') := by
  fun_induction skipGap mode l text generalizing front with
  | case1 l rest' ih =>
      rcases ih h (front ++ ['/', '/']) with ⟨⟨⟩, -⟩ | hbehind
      exact Or.inr (by simpa using hbehind)
  | case2 l rest' ih =>
      rcases ih h (front ++ ['/', '*']) with ⟨⟨⟩, -⟩ | hbehind
      exact Or.inr (by simpa using hbehind)
  | case3 l c rest' _ _ hblank ih =>
      rcases ih h (front ++ [c]) with ⟨-, rfl, rfl⟩ | hbehind
      · have hclear : Clear [c] := clear_singleton (isWordMark_of_isBlank hblank)
        exact Or.inr ⟨front ++ [c], by simp, fun _ => hclear.append (by simp) front⟩
      · exact Or.inr (by simpa using hbehind)
  | case4 l c rest' _ _ hblank =>
      cases h
      exact Or.inl ⟨rfl, rfl, rfl⟩
  | case5 l rest' ih =>
      rcases ih h (front ++ ['\n']) with ⟨-, rfl, rfl⟩ | hbehind
      · have hclear : Clear ['\n'] := clear_singleton (by decide)
        exact Or.inr ⟨front ++ ['\n'], by simp, fun _ => hclear.append (by simp) front⟩
      · exact Or.inr (by simpa using hbehind)
  | case6 l c rest' hc ih =>
      rcases ih h (front ++ [c]) with ⟨⟨⟩, -⟩ | hbehind
      exact Or.inr (by simpa using hbehind)
  | case7 start l rest' ih =>
      rcases ih h (front ++ ['*', '/']) with ⟨-, rfl, rfl⟩ | hbehind
      · have hclear : Clear ['*', '/'] := by
          rintro d ⟨⟩
          decide
        exact Or.inr ⟨front ++ ['*', '/'], by simp, fun _ => hclear.append (by simp) front⟩
      · exact Or.inr (by simpa using hbehind)
  | case8 start l c rest' _ ih =>
      rcases ih h (front ++ [c]) with ⟨⟨⟩, -⟩ | hbehind
      exact Or.inr (by simpa using hbehind)
  | case9 l =>
      cases h
      exact Or.inl ⟨rfl, rfl, rfl⟩
  | case10 l =>
      cases h
      exact Or.inr ⟨front, rfl, fun hne => absurd rfl hne⟩
  | case11 start l => cases h

/-! ## Numerals -/

/-- The front part of the text and what is behind it, where the front part is on one line. -/
structure TakesLine (text front behind : List Char) : Prop where
  whole : front ++ behind = text
  oneLine : '\n' ∉ front

namespace TakesLine

variable {text front behind : List Char}

theorem nil (text : List Char) : TakesLine text [] text := by
  constructor <;> simp

theorem cons {c : Char} (hc : c ≠ '\n') (h : TakesLine text front behind) :
    TakesLine (c :: text) (c :: front) behind := by
  refine ⟨by rw [List.cons_append, h.whole], ?_⟩
  rw [List.mem_cons, not_or]
  exact ⟨hc.symm, h.oneLine⟩

theorem append {more last : List Char} (h : TakesLine text front behind)
    (hmore : TakesLine behind more last) : TakesLine text (front ++ more) last := by
  refine ⟨by rw [List.append_assoc, hmore.whole, h.whole], ?_⟩
  rw [List.mem_append, not_or]
  exact ⟨h.oneLine, hmore.oneLine⟩

theorem takeWhile {p : Char → Bool} (hp : p '\n' = false) (text : List Char) :
    TakesLine text (text.takeWhile p) (text.dropWhile p) := by
  refine ⟨List.takeWhile_append_dropWhile, fun hmem => ?_⟩
  have htrue : p '\n' = true := List.mem_takeWhile_imp hmem
  simp [hp] at htrue

theorem splitDigits (text : List Char) :
    TakesLine text (Number.splitDigits text).1 (Number.splitDigits text).2 :=
  takeWhile (by decide) text

end TakesLine

theorem takesLine_fractionPart (text : List Char) :
    TakesLine text (fractionPart text).1 (fractionPart text).2 := by
  unfold fractionPart
  split
  · exact TakesLine.nil _
  · exact (TakesLine.splitDigits _).cons (by decide)
  · exact TakesLine.nil _

theorem takesLine_exponentPart (text : List Char) :
    TakesLine text (exponentPart text).1 (exponentPart text).2 := by
  unfold exponentPart
  dsimp only
  split
  · rename_i c more
    split
    · rename_i hc
      have hline : c ≠ '\n' := by
        rintro rfl
        simp at hc
      split
      · rename_i behind
        split
        · exact TakesLine.nil _
        · exact ((TakesLine.splitDigits behind).cons (by decide)).cons hline
      · rename_i behind
        split
        · exact TakesLine.nil _
        · exact ((TakesLine.splitDigits behind).cons (by decide)).cons hline
      · split
        · exact TakesLine.nil _
        · exact (TakesLine.splitDigits more).cons hline
    · exact TakesLine.nil _
  · exact TakesLine.nil _

/-- Whether the token is a numeral. -/
def Kind.isNumeral : Kind → Bool
  | .number _ | .bigint _ => true
  | _ => false

/-- The lexeme is a numeral at the front of the text. -/
structure Lexeme.IsNumeral (found : Lexeme) (text : List Char) : Prop where
  kind : found.kind.isNumeral = true
  nonempty : found.text ≠ []
  parts : TakesLine text found.text found.rest

theorem finish_isNumeral {text whole fraction rest : List Char} {found : Lexeme}
    (hne : whole ≠ []) (hfront : TakesLine text (whole ++ fraction) rest)
    (h : numberLexeme.finish whole fraction rest = .ok found) : found.IsNumeral text := by
  unfold numberLexeme.finish at h
  dsimp only at h
  split at h
  · cases h
    exact ⟨rfl, by simp [hne], hfront.append (takesLine_exponentPart rest)⟩
  · cases h

theorem hexLexeme_isNumeral {mark rest : List Char} {found : Lexeme} (hne : mark ≠ [])
    (hmark : '\n' ∉ mark) (h : hexLexeme mark rest = .ok found) :
    found.IsNumeral (mark ++ rest) := by
  unfold hexLexeme at h
  dsimp only at h
  split at h
  · cases h
    have hstart : TakesLine (mark ++ rest) mark rest := ⟨rfl, hmark⟩
    exact ⟨rfl, by simp [hne], hstart.append (TakesLine.takeWhile (by decide) rest)⟩
  · cases h

theorem numberLexeme_isNumeral {first : Char} {rest : List Char} {found : Lexeme}
    (hfirst : first ≠ '\n') (h : numberLexeme first rest = .ok found) :
    found.IsNumeral (first :: rest) := by
  unfold numberLexeme at h
  split at h
  · exact hexLexeme_isNumeral (by simp : ['0', 'x'] ≠ []) (by decide) h
  · exact hexLexeme_isNumeral (by simp : ['0', 'X'] ≠ []) (by decide) h
  · dsimp only at h
    have hwhole : TakesLine (first :: rest)
        (first :: rest.takeWhile fun c => c.isDigit || c == '_')
        (rest.dropWhile fun c => c.isDigit || c == '_') :=
      (TakesLine.takeWhile (by decide) rest).cons hfirst
    split at h
    · rename_i after hbehind
      split at h
      · exact finish_isNumeral (by simp) (by rwa [List.append_nil]) h
      · cases h
        rw [hbehind] at hwhole
        exact ⟨rfl, by simp, hwhole.append ((TakesLine.nil after).cons (by decide))⟩
    · split at h
      · exact finish_isNumeral (by simp) (by rwa [List.append_nil]) h
      · exact finish_isNumeral (by simp) (hwhole.append (takesLine_fractionPart _)) h

/-! ## Lexemes -/

/-- A lexeme is a piece of text behind which no word goes on, or a numeral. -/
structure Lexeme.Parts (found : Lexeme) (text : List Char) : Prop where
  whole : found.text ++ found.rest = text
  nonempty : found.text ≠ []
  border : Clear found.text ∨ (found.kind.isNumeral = true ∧ '\n' ∉ found.text) ∨
    found.rest.takeWhile isNamePart = []
  name : ∀ x, found.kind = .name x →
    x.toList = text.takeWhile isNamePart ∧ x.toList.head?.any isNameStart = true

theorem stringBody_parts {quote : Char} {value taken text : List Char}
    {found : List Char × List Char × List Char}
    (h : stringBody quote value taken text = some found) :
    found.2.1 ++ found.2.2 = taken.reverse ++ text ∧ found.2.1.getLast? = some quote := by
  fun_induction stringBody quote value taken text with
  | case1 value taken c rest ih =>
      obtain ⟨hwhole, hlast⟩ := ih h
      exact ⟨by rw [hwhole]; simp, hlast⟩
  | case2 value taken rest =>
      cases h
      simp
  | case3 => cases h
  | case4 value taken c rest _ hquote hmark ih =>
      obtain ⟨hwhole, hlast⟩ := ih h
      exact ⟨by rw [hwhole]; simp, hlast⟩
  | case5 => cases h

theorem lexeme_nameStart {c : Char} (hc : isNameStart c = true) (rest : List Char) :
    lexeme c rest = .ok (wordLexeme (c :: rest)) := by
  have hquote : ¬ (c = '"' ∨ c = '\'') := by
    rintro (rfl | rfl) <;> exact absurd hc (by decide)
  have hdigit : c.isDigit = false := isDigit_of_isNameStart hc
  have hpoint : c ≠ '.' := by
    rintro rfl
    exact absurd hc (by decide)
  simp only [lexeme, Bool.or_eq_true, decide_eq_true_eq, if_neg hquote, hdigit, hpoint,
    decide_false, Bool.false_and, Bool.or_self, Bool.false_eq_true, if_false, hc, if_true]

theorem wordLexeme_parts {c : Char} {rest : List Char} (hc : isNameStart c = true) :
    (wordLexeme (c :: rest)).Parts (c :: rest) := by
  have hpart : isNamePart c = true := isNamePart_of_isNameStart hc
  constructor
  · exact List.takeWhile_append_dropWhile
  · simp [wordLexeme, hpart]
  · refine Or.inr (Or.inr ?_)
    rw [List.takeWhile_eq_nil_iff]
    intro hlength
    exact List.dropWhile_get_zero_not isNamePart (c :: rest) hlength
  · intro x hx
    unfold wordLexeme at hx
    dsimp only at hx
    split at hx
    · cases hx
    · cases hx
      rw [String.toList_ofList, List.takeWhile_cons, hpart]
      exact ⟨rfl, hc⟩

theorem clear_symbol (s : Symbol) : s.text.toList ≠ [] ∧ Clear s.text.toList := by
  cases s <;> exact ⟨by decide, by rintro c ⟨⟩; decide⟩

theorem symbolLexeme?_parts {text : List Char} {found : Lexeme}
    (h : symbolLexeme? text = some found) : found.Parts text := by
  obtain ⟨s, hs, rfl⟩ := Option.map_eq_some_iff.mp h
  have hprefix : s.text.toList <+: text := by
    have hfits := List.find?_some hs
    exact List.isPrefixOf_iff_prefix.mp hfits
  obtain ⟨hne, hclear⟩ := clear_symbol s
  obtain ⟨rest, rfl⟩ := hprefix
  constructor
  · simp
  · exact hne
  · exact Or.inl hclear
  · rintro x ⟨⟩

theorem lexeme_parts {c : Char} {rest : List Char} {found : Lexeme}
    (h : lexeme c rest = .ok found) : found.Parts (c :: rest) := by
  unfold lexeme at h
  split at h
  · rename_i hquote
    split at h
    · rename_i value text after hbody
      cases h
      obtain ⟨hwhole, hlast⟩ := stringBody_parts hbody
      have hclear : Clear text := by
        intro d hd
        obtain rfl : c = d := Option.some.inj (hlast.symm.trans hd)
        rcases (by simpa using hquote : c = '"' ∨ c = '\'') with rfl | rfl <;> decide
      constructor
      · exact hwhole
      · rintro rfl
        cases hlast
      · exact Or.inl hclear
      · rintro x ⟨⟩
    · cases h
  · split at h
    · rename_i hstart
      have hline : c ≠ '\n' := by
        rintro rfl
        simp at hstart
      obtain ⟨hkind, hne, hparts⟩ := numberLexeme_isNumeral hline h
      constructor
      · exact hparts.whole
      · exact hne
      · exact Or.inr (Or.inl ⟨hkind, hparts.oneLine⟩)
      · intro x hx
        rw [hx] at hkind
        cases hkind
    · split at h
      · rename_i hname
        cases h
        exact wordLexeme_parts hname
      · split at h
        · rename_i found' hfound
          cases h
          exact symbolLexeme?_parts hfound
        · cases h

/-! ## Tokens -/

/-- What is known of a name by the token before it: unless that is a numeral on the line of
the name, the name has the property. -/
def Adjacent (Named : String → Prop) (token next : Token) : Prop :=
  ∀ x, next.kind = .name x →
    (token.kind.isNumeral = true → token.loc.line ≠ next.loc.line) → Named x

/-- What stands before the place where a text goes on behind a token. -/
def Bordered (token : Token) (l : Location) (front text : List Char) : Prop :=
  Clear front ∨ (token.kind.isNumeral = true ∧ token.loc.line = l.line) ∨
    text.takeWhile isNamePart = []

theorem Location.line_after {text : List Char} (h : '\n' ∉ text) (l : Location) :
    (l.after text).line = l.line := by
  induction text generalizing l with
  | nil => rfl
  | cons c rest ih =>
      rw [List.mem_cons, not_or] at h
      have hnext : (l.next c).line = l.line := by
        rw [Location.next, if_neg fun hc => h.1 hc.symm]
      exact (ih h.2 (l.next c)).trans hnext

/-- A gap before which a text goes on behind a token is one behind which it does. -/
theorem Bordered.skipGap {token : Token} {l l' : Location} {front text rest : List Char}
    (hborder : Bordered token l front text) (h : Syntax.skipGap .open l text = .ok (l', rest))
    (hrest : rest ≠ []) :
    ∃ front', front ++ text = front' ++ rest ∧ Bordered token l' front' rest := by
  rcases skipGap_clear h front with ⟨-, rfl, rfl⟩ | ⟨front', hsplit, hclear⟩
  · exact ⟨front, rfl, hborder⟩
  · exact ⟨front', hsplit, Or.inl (hclear hrest)⟩

theorem Bordered.lexeme {l : Location} {text : List Char} {found : Lexeme}
    (hfound : found.Parts text) (front : List Char) :
    Bordered ⟨found.kind, l⟩ (l.after found.text) (front ++ found.text) found.rest := by
  rcases hfound.border with hclear | ⟨hkind, hline⟩ | hend
  · exact Or.inl (hclear.append hfound.nonempty front)
  · exact Or.inr (Or.inl ⟨hkind, (Location.line_after hline l).symm⟩)
  · exact Or.inr (Or.inr hend)

theorem written_of_clear {source : String} {front text : List Char}
    (hsource : source.toList = front ++ text) (hclear : Clear front) {x : String}
    (hx : x.toList = text.takeWhile isNamePart)
    (hstart : x.toList.head?.any isNameStart = true) : Written source x := by
  cases text with
  | nil => simp [hx] at hstart
  | cons c rest =>
      cases hmark : isNamePart c with
      | false => simp [hx, hmark] at hstart
      | true =>
          rw [List.takeWhile_cons, hmark, if_pos rfl] at hx
          have hword : x.toList ∈ wordsAfter [] (c :: rest) := by
            have hc : isWordMark c = true := hmark
            rw [wordsAfter, hc, if_pos rfl, hx]
            exact takeWhile_mem_wordsAfter (by simp) rest
          refine ⟨?_, ?_⟩
          · rw [hsource]
            exact mem_wordsAfter_append hclear hword fun _ => rfl
          · rw [hx] at hstart ⊢
            exact isDigit_of_isNameStart hstart

theorem adjacent_lexeme {source : String} {front text : List Char}
    (hsource : source.toList = front ++ text) {token : Token} {l : Location}
    (hborder : Bordered token l front text) {found : Lexeme} (hfound : found.Parts text) :
    Adjacent (Written source) token ⟨found.kind, l⟩ := by
  intro x hx hline
  obtain ⟨hword, hstart⟩ := hfound.name x hx
  rcases hborder with hclear | ⟨hnumeral, hsame⟩ | hend
  · exact written_of_clear hsource hclear hword hstart
  · exact absurd hsame (hline hnumeral)
  · rw [hword, hend] at hstart
    cases hstart

theorem isChain_end (Named : String → Prop) (token : Token) (l : Location) :
    List.IsChain (Adjacent Named) [token, ⟨.endOfInput, l⟩] := by
  rw [List.isChain_cons_cons]
  exact ⟨by rintro x ⟨⟩, List.isChain_singleton _⟩

/-- Tokens end where the gap reaches the end of the text, or go on with a lexeme. -/
theorem tokensFrom_succ {left : Nat} {l : Location} {text : List Char} {tokens : List Token}
    (h : tokensFrom (left + 1) l text = .ok tokens) :
    ∃ l' rest, skipGap .open l text = .ok (l', rest) ∧
      (rest = [] ∧ tokens = [⟨.endOfInput, l'⟩] ∨ ∃ c more found others, rest = c :: more ∧
        lexeme c more = .ok found ∧
        tokensFrom left (l'.after found.text) found.rest = .ok others ∧
        tokens = ⟨found.kind, l'⟩ :: others) := by
  rw [tokensFrom] at h
  cases hgap : skipGap .open l text with
  | error e =>
      rw [hgap] at h
      cases h
  | ok behind =>
      obtain ⟨l', rest⟩ := behind
      rw [hgap] at h
      refine ⟨l', rest, rfl, ?_⟩
      cases rest with
      | nil =>
          cases h
          exact Or.inl ⟨rfl, rfl⟩
      | cons c more =>
          simp only [bind, Except.bind] at h
          cases hlexeme : lexeme c more with
          | error fault =>
              simp only [hlexeme] at h
              cases h
          | ok found =>
              simp only [hlexeme] at h
              cases hothers : tokensFrom left (l'.after found.text) found.rest with
              | error e =>
                  rw [hothers] at h
                  cases h
              | ok others =>
                  rw [hothers] at h
                  cases h
                  exact Or.inr ⟨c, more, found, others, rfl, hlexeme, hothers, rfl⟩

theorem isChain_tokensFrom {source : String} {left : Nat} {l : Location} {text : List Char}
    {tokens : List Token} (h : tokensFrom left l text = .ok tokens) {front : List Char}
    (hsource : source.toList = front ++ text) {token : Token}
    (hborder : Bordered token l front text) :
    List.IsChain (Adjacent (Written source)) (token :: tokens) := by
  induction left generalizing l text tokens front token with
  | zero =>
      cases h
      exact isChain_end _ token l
  | succ left ih =>
      obtain ⟨l', rest, hgap, ⟨-, rfl⟩ | ⟨c, more, found, others, rfl, hlexeme, hothers, rfl⟩⟩ :=
        tokensFrom_succ h
      · exact isChain_end _ token l'
      · have hfound : found.Parts (c :: more) := lexeme_parts hlexeme
        obtain ⟨front', hsplit, hborder'⟩ := hborder.skipGap hgap (List.cons_ne_nil c more)
        rw [hsplit] at hsource
        have hbehind : source.toList = (front' ++ found.text) ++ found.rest := by
          rw [hsource, List.append_assoc, hfound.whole]
        rw [List.isChain_cons_cons]
        exact ⟨adjacent_lexeme hsource hborder' hfound,
          ih hothers hbehind (Bordered.lexeme hfound front')⟩

/-- Every name among the tokens of a text is a word of the text, or follows a numeral on its
line. -/
theorem isChain_tokenize {source : String} {tokens : List Token}
    (h : tokenize source = .ok tokens) (token : Token) :
    List.IsChain (Adjacent (Written source)) (token :: tokens) := by
  have hclear : Clear [] := by simp [Clear]
  exact isChain_tokensFrom h rfl (Or.inl hclear)

end Syntax

end StepTrace
