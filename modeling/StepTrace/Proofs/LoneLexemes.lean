import StepTrace.Proofs.TokenTexts

/-!
# Lexemes on their own

The text behind a lexeme decides where the lexeme ends, and nothing else of it: its characters
alone are read as the same token (`lexeme_alone`). For a numeral this needs its form, since
whether a point or an `e` belongs to it depends on up to three characters behind it.

* `tokenize_alone`: the tokens of the text of a lexeme.
-/

namespace StepTrace.Syntax

open Capture Text

variable {c : Char} {rest front : List Char} {found : Lexeme}

/-- The lexeme at the end of a text. -/
def Lexeme.alone (found : Lexeme) : Lexeme :=
  { found with rest := [] }

theorem takeWhile_takeWhile {p : Char → Bool} (text : List Char) :
    (text.takeWhile p).takeWhile p = text.takeWhile p :=
  List.takeWhile_eq_self_iff.mpr fun _ hc => List.mem_takeWhile_imp hc

theorem dropWhile_takeWhile {p : Char → Bool} (text : List Char) :
    (text.takeWhile p).dropWhile p = [] :=
  List.dropWhile_eq_nil_iff.mpr fun _ hc => List.mem_takeWhile_imp hc

/-! ## Text literals -/

theorem stringBody_alone {quote : Char} {value taken text : List Char}
    {found : List Char × List Char × List Char}
    (h : stringBody quote value taken text = some found) :
    ∃ front, found.2.1 = taken.reverse ++ front ∧
      stringBody quote value taken front = some (found.1, found.2.1, []) := by
  fun_induction stringBody quote value taken text with
  | case1 value taken c rest ih =>
      obtain ⟨front, htext, hfront⟩ := ih h
      refine ⟨'\\' :: c :: front, by simp [htext], ?_⟩
      rw [stringBody]
      exact hfront
  | case2 value taken rest hescape =>
      cases h
      refine ⟨[quote], by simp, ?_⟩
      rw [stringBody, if_pos rfl]
      simp
  | case3 => cases h
  | case4 value taken c rest hescape hquote hmark ih =>
      obtain ⟨front, htext, hfront⟩ := ih h
      refine ⟨c :: front, by simp [htext], ?_⟩
      rw [stringBody, if_neg hquote, if_neg hmark]
      · exact hfront
      · rintro d more rfl
        simp at hmark
  | case5 => cases h

/-! ## Numerals -/

theorem splitDigits_digits {digits : List Char} (h : ∀ c ∈ digits, c.isDigit = true) :
    Number.splitDigits digits = (digits, []) := by
  have hend : StartsNoDigit [] := by
    unfold StartsNoDigit
    simp
  rw [← List.append_nil digits, splitDigits_of_digits h hend, List.append_nil]

theorem exponentPart_of_isExponent {exponent : List Char} (h : IsExponent exponent) :
    exponentPart exponent = (exponent, []) := by
  rcases h with rfl | ⟨mark, sign, digits, rfl, hmark, hsign, hne, hdigits⟩
  · rfl
  · have hsplit := splitDigits_digits hdigits
    unfold exponentPart
    rcases hsign with rfl | rfl | rfl
    · -- a digit is no sign
      have hplain : ∀ d more, digits = d :: more → d ≠ '+' ∧ d ≠ '-' := by
        intro d more heq
        have hd : d.isDigit = true := hdigits d (heq ▸ List.mem_cons_self)
        constructor
        · rintro rfl
          exact absurd hd (by decide)
        · rintro rfl
          exact absurd hd (by decide)
      simp only [List.nil_append, hmark, if_pos, Bool.or_eq_true, decide_eq_true_eq]
      split
      · exact absurd rfl (hplain _ _ rfl).1
      · exact absurd rfl (hplain _ _ rfl).2
      · simp [hsplit, hne]
    · simp [hmark, hsplit, hne]
    · simp [hmark, hsplit, hne]

theorem fractionPart_of_isFraction {fraction exponent : List Char} (hfraction : IsFraction fraction)
    (hexponent : IsExponent exponent) :
    fractionPart (fraction ++ exponent) = (fraction, exponent) := by
  obtain ⟨hnodigit, hnopoint⟩ := startsNoDigit_exponent hexponent
  unfold fractionPart
  rcases hfraction with rfl | ⟨digits, rfl, hdigits⟩
  · rw [List.nil_append]
    split
    · exact absurd rfl hnopoint
    · exact absurd rfl hnopoint
    · rfl
  · split
    · rename_i more heq
      -- neither a digit nor the mark of an exponent is a second point
      cases digits with
      | nil =>
          rw [List.cons_append, List.nil_append] at heq
          exact absurd (congrArg List.head? (List.cons.inj heq).2) hnopoint
      | cons d digits =>
          rw [List.cons_append, List.cons_append] at heq
          obtain rfl := (List.cons.inj (List.cons.inj heq).2).1
          cases hdigits '.' List.mem_cons_self
    · rename_i more _ heq
      rw [← (List.cons.inj heq).2]
      have hsplit := splitDigits_of_digits hdigits hnodigit
      rw [show Number.splitDigits (digits.append exponent) = (digits, exponent) from hsplit]
    · rename_i hpoint
      exact absurd rfl (hpoint _)

theorem finish_alone {whole fraction rest : List Char}
    (h : numberLexeme.finish whole fraction rest = .ok found) :
    found.text = whole ++ fraction ++ (exponentPart rest).1 ∧
      numberLexeme.finish whole fraction (exponentPart rest).1 = .ok found.alone := by
  have hexponent := exponentPart_of_isExponent (isExponent_exponentPart rest)
  unfold numberLexeme.finish at h ⊢
  dsimp only at h ⊢
  rw [hexponent]
  split at h
  · rename_i x hread
    cases h
    rw [hread]
    exact ⟨rfl, rfl⟩
  · cases h

theorem hexLexeme_alone {mark : List Char} (h : hexLexeme mark rest = .ok found) :
    found.text = mark ++ rest.takeWhile isHexMark ∧
      hexLexeme mark (rest.takeWhile isHexMark) = .ok found.alone := by
  unfold hexLexeme at h ⊢
  dsimp only at h ⊢
  rw [takeWhile_takeWhile, dropWhile_takeWhile]
  split at h
  · cases h
    exact ⟨rfl, rfl⟩
  · cases h

/-- Behind the digits of a numeral stands what ends them. -/
def EndsDigits (behind : List Char) : Prop :=
  ∀ d ∈ behind.head?, d = '.' ∨ d = 'e' ∨ d = 'E' ∨ d = 'n'

/-- No digit goes on here, and a zero in front begins no hexadecimal literal. -/
def StopsDigits (behind : List Char) : Prop :=
  ∀ d ∈ behind.head?, isDigitMark d = false ∧ d ≠ 'x' ∧ d ≠ 'X'

theorem EndsDigits.stops {behind : List Char} (h : EndsDigits behind) : StopsDigits behind := by
  intro d hd
  rcases h d hd with rfl | rfl | rfl | rfl <;> decide

theorem endsDigits_fraction {fraction exponent : List Char} (hfraction : IsFraction fraction)
    (hexponent : IsExponent exponent) :
    EndsDigits (fraction ++ exponent) ∧ (fraction ++ exponent).head? ≠ some 'n' := by
  rcases hfraction with rfl | ⟨digits, rfl, -⟩
  · rcases hexponent with rfl | ⟨mark, sign, digits, rfl, rfl | rfl, -⟩
    · exact ⟨nofun, nofun⟩
    · exact ⟨by rintro d ⟨⟩; simp, by simp⟩
    · exact ⟨by rintro d ⟨⟩; simp, by simp⟩
  · exact ⟨by rintro d ⟨⟩; simp, by simp⟩

section Marks

variable {first : Char} {marks behind : List Char}

theorem takeWhile_marks (hmarks : ∀ c ∈ marks, isDigitMark c = true)
    (hbehind : StopsDigits behind) :
    (marks ++ behind).takeWhile isDigitMark = marks ∧
      (marks ++ behind).dropWhile isDigitMark = behind := by
  rw [List.takeWhile_append_of_pos hmarks, List.dropWhile_append_of_pos hmarks]
  cases behind with
  | nil => simp
  | cons d behind =>
      have hd : isDigitMark d = false := (hbehind d rfl).1
      simp [hd]

/-- The digits of a numeral do not begin with the mark of a hexadecimal literal. -/
theorem head?_marks (hmarks : ∀ c ∈ marks, isDigitMark c = true) (hbehind : StopsDigits behind) :
    ∀ d ∈ (marks ++ behind).head?, d ≠ 'x' ∧ d ≠ 'X' := by
  cases marks with
  | nil =>
      exact fun d hd => (hbehind d hd).2
  | cons c marks =>
      rintro d ⟨⟩
      have hc : isDigitMark c = true := hmarks c List.mem_cons_self
      constructor
      · rintro rfl
        exact absurd hc (by decide)
      · rintro rfl
        exact absurd hc (by decide)

theorem numberLexeme_bigint (hfirst : first ≠ '.') (hmarks : ∀ c ∈ marks, isDigitMark c = true)
    (after : List Char) :
    numberLexeme first (marks ++ 'n' :: after) =
      .ok ⟨.bigint (String.ofList (dropUnderscores (first :: marks))), first :: marks ++ ['n'],
        after⟩ := by
  have hends : EndsDigits ('n' :: after) := by
    rintro d ⟨⟩
    simp
  obtain ⟨htake, hdrop⟩ := takeWhile_marks hmarks hends.stops
  have hhead := head?_marks hmarks hends.stops
  unfold numberLexeme
  split
  · rename_i hex heq
    exact absurd rfl (hhead 'x' (by rw [heq]; rfl)).1
  · rename_i hex heq
    exact absurd rfl (hhead 'X' (by rw [heq]; rfl)).2
  · dsimp only
    rw [show (marks ++ 'n' :: after).dropWhile (fun c => c.isDigit || c == '_') = 'n' :: after
      from hdrop, show (marks ++ 'n' :: after).takeWhile (fun c => c.isDigit || c == '_') = marks
      from htake]
    simp only [if_neg hfirst]

theorem numberLexeme_decimal (hmarks : ∀ c ∈ marks, isDigitMark c = true)
    (hbehind : StopsDigits behind) (hsuffix : behind.head? ≠ some 'n' ∨ first = '.') :
    numberLexeme first (marks ++ behind) =
      if first = '.' then numberLexeme.finish (first :: marks) [] behind
      else numberLexeme.finish (first :: marks) (fractionPart behind).1
        (fractionPart behind).2 := by
  obtain ⟨htake, hdrop⟩ := takeWhile_marks hmarks hbehind
  have hhead := head?_marks hmarks hbehind
  unfold numberLexeme
  split
  · rename_i hex heq
    exact absurd rfl (hhead 'x' (by rw [heq]; rfl)).1
  · rename_i hex heq
    exact absurd rfl (hhead 'X' (by rw [heq]; rfl)).2
  · dsimp only
    rw [show (marks ++ behind).dropWhile (fun c => c.isDigit || c == '_') = behind from hdrop,
      show (marks ++ behind).takeWhile (fun c => c.isDigit || c == '_') = marks from htake]
    split
    · obtain rfl := hsuffix.resolve_left (by simp)
      rfl
    · split
      · rfl
      · rfl

end Marks

/-- A numeral is read as the same one where nothing follows. -/
theorem numberLexeme_alone {first : Char} (h : numberLexeme first rest = .ok found) :
    ∃ front, found.text = first :: front ∧ numberLexeme first front = .ok found.alone := by
  have hform := numberLexeme_form first rest
  generalize numberLexeme first rest = result at hform h
  cases hform with
  | hexadecimal hfirst hrest hmark =>
      obtain ⟨htext, hfront⟩ := hexLexeme_alone h
      rw [hfirst]
      rcases hmark with rfl | rfl
      · exact ⟨_, htext, hfront⟩
      · exact ⟨_, htext, hfront⟩
  | @bigint marks after hfirst hmarks =>
      cases h
      exact ⟨marks ++ ['n'], rfl, numberLexeme_bigint hfirst hmarks []⟩
  | @decimal fraction behind hfraction hpoint =>
      have hmarks : ∀ c ∈ rest.takeWhile isDigitMark, isDigitMark c = true :=
        fun c hc => List.mem_takeWhile_imp hc
      have hexponent := isExponent_exponentPart behind
      obtain ⟨htext, hfinish⟩ := finish_alone h
      obtain ⟨hends, hsuffix⟩ := endsDigits_fraction hfraction hexponent
      refine ⟨rest.takeWhile isDigitMark ++ (fraction ++ (exponentPart behind).1),
        by rw [htext]; simp, ?_⟩
      rw [numberLexeme_decimal hmarks hends.stops (Or.inl hsuffix)]
      split
      · rename_i hfirst
        obtain rfl := hpoint hfirst
        exact hfinish
      · rw [fractionPart_of_isFraction hfraction hexponent]
        exact hfinish

/-! ## Words and symbols -/

theorem wordLexeme_alone (text : List Char) :
    wordLexeme (wordLexeme text).text = (wordLexeme text).alone := by
  simp only [wordLexeme, Lexeme.alone, takeWhile_takeWhile, dropWhile_takeWhile]

/-- Where nothing follows a symbol, no symbol is longer, since a longer one there would have been
one in the text. -/
theorem symbolLexeme?_alone {text : List Char} (h : symbolLexeme? text = some found) :
    symbolLexeme? found.text = some found.alone := by
  obtain ⟨m, hm, rfl⟩ := Option.map_eq_some_iff.mp h
  obtain ⟨hfits, front, back, hlist, hfirst⟩ := List.find?_eq_some_iff_append.mp hm
  have hstart : m.text.toList <+: text := List.isPrefixOf_iff_prefix.mp hfits
  have hfind : Symbol.longestFirst.find? (fun s => s.text.toList.isPrefixOf m.text.toList) =
      some m := by
    refine List.find?_eq_some_iff_append.mpr ⟨?_, front, back, hlist, fun s hs => ?_⟩
    · exact List.isPrefixOf_iff_prefix.mpr List.prefix_rfl
    · have hs' := hfirst s hs
      simp only [Bool.not_eq_true', ← Bool.not_eq_true, List.isPrefixOf_iff_prefix] at hs' ⊢
      exact fun hshort => hs' (hshort.trans hstart)
  unfold symbolLexeme?
  dsimp only
  rw [hfind, Option.map_some, List.drop_length]
  rfl

/-! ## Lexemes -/

/-- A point alone is no numeral, so that a numeral begins as the text does. -/
theorem startsNumeral_front {found : Lexeme} (hstart : (c.isDigit ||
    (c = '.' && rest.head?.any Char.isDigit)) = true) (hrest : front ++ found.rest = rest)
    (hfront : numberLexeme c front = .ok found.alone) :
    (c.isDigit || (c = '.' && front.head?.any Char.isDigit)) = true := by
  cases front with
  | nil =>
      by_cases hpoint : c = '.'
      · subst hpoint
        cases hfront
      · simpa [hpoint] using hstart
  | cons d front =>
      obtain rfl := hrest
      exact hstart

/-- A lexeme starts with the first character of the text. -/
theorem lexeme_front (h : lexeme c rest = .ok found) :
    ∃ front, found.text = c :: front ∧ front ++ found.rest = rest := by
  obtain ⟨hwhole, hne, -⟩ := lexeme_parts h
  obtain ⟨d, front, htext⟩ := List.exists_cons_of_ne_nil hne
  rw [htext, List.cons_append] at hwhole
  obtain ⟨rfl, hrest⟩ := List.cons.inj hwhole
  exact ⟨front, htext, hrest⟩

/-- The characters of a lexeme alone are read as the same token. -/
theorem lexeme_alone (h : lexeme c rest = .ok found) :
    ∃ front, found.text = c :: front ∧ lexeme c front = .ok found.alone := by
  obtain ⟨front, htext, hrest⟩ := lexeme_front h
  refine ⟨front, htext, ?_⟩
  unfold lexeme at h ⊢
  split at h
  · rename_i hquote
    rw [if_pos hquote]
    split at h
    · rename_i value text after hbody
      cases h
      obtain ⟨front', htext', hbody'⟩ := stringBody_alone hbody
      obtain rfl := List.cons.inj (htext.symm.trans htext') |>.2
      rw [hbody']
      rfl
    · cases h
  · rename_i hquote
    rw [if_neg hquote]
    split at h
    · rename_i hnumeral
      obtain ⟨front', htext', hfront⟩ := numberLexeme_alone h
      obtain rfl := List.cons.inj (htext.symm.trans htext') |>.2
      rw [if_pos (startsNumeral_front hnumeral hrest hfront), hfront]
    · rename_i hnumeral
      -- what is no numeral does not become one without the text behind it
      have hshort : ¬ (c.isDigit || (c = '.' && front.head?.any Char.isDigit)) = true := by
        intro hstart
        refine hnumeral ?_
        obtain rfl := hrest
        cases front with
        | nil => simpa using Or.inl hstart
        | cons d front => exact hstart
      rw [if_neg hshort]
      split at h
      · rename_i hname
        cases h
        rw [if_pos hname, ← htext, wordLexeme_alone]
      · rename_i hname
        rw [if_neg hname]
        split at h
        · rename_i symbol hsymbol
          cases h
          rw [← htext, symbolLexeme?_alone hsymbol]
        · cases h

/-! ## The text of a lexeme -/

/-- A lexeme begins no gap, so that the tokens of its text are its own one and the end. -/
theorem tokenize_alone {l l' : Location} {text : List Char}
    (hgap : skipGap .open l text = .ok (l', c :: rest)) (h : lexeme c rest = .ok found) :
    tokenize (String.ofList found.text) =
      .ok [⟨found.kind, ⟨1, 1⟩⟩, ⟨.endOfInput, Location.after ⟨1, 1⟩ found.text⟩] := by
  obtain ⟨hblank, hslash⟩ := skipGap_stops hgap
  obtain ⟨front, htext, hfront⟩ := lexeme_alone h
  obtain ⟨front', htext', hrest⟩ := lexeme_front h
  obtain rfl := List.cons.inj (htext.symm.trans htext') |>.2
  have hshort : c = '/' → front.head? ≠ some '/' ∧ front.head? ≠ some '*' := by
    intro hc
    obtain rfl := hrest
    cases front with
    | nil => exact ⟨nofun, nofun⟩
    | cons d front => exact hslash hc
  have hstart (l : Location) : skipGap .open l found.text = .ok (l, c :: front) := by
    rw [htext, skipGap_none hblank hshort]
  have hend : tokensFrom found.text.length (Location.after ⟨1, 1⟩ found.alone.text)
      found.alone.rest = .ok [⟨.endOfInput, Location.after ⟨1, 1⟩ found.text⟩] := by
    change tokensFrom found.text.length (Location.after ⟨1, 1⟩ found.text) [] = _
    rw [htext, List.length_cons]
    rfl
  have hall := tokensFrom_cons (hstart ⟨1, 1⟩) hfront hend
  rw [tokenize, String.toList_ofList]
  exact hall

end StepTrace.Syntax
