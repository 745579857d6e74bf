import StepTrace.Proofs.ScannedGaps

/-!
# The scan over lexemes

A scan that stands in code in front of a lexeme is moved over it as if it had read the token
(`takes_lexeme`). Two things are in the way. A keyword right behind a numeral, as in
`0x1async`, is not seen, because the scan takes the whole of it for one word; and a symbol that
ends in `=` makes an arrow with a `>` behind it. Both are left to the parser, which accepts no
such neighbours (`Separate`). Texts that go on over the end of a line are left out: the lexer
reads such a text to its closing mark, and the scan takes what follows for code.

* `Scan.token`: what a token does to the scan.
* `Takes`: the scan goes over a lexeme.
-/

namespace StepTrace.Capture

open Text Syntax

variable {before s s' : Scan} {c : Char} {front rest text : List Char}

/-! ## Tokens -/

/-- What a token does to the scan; an arrow may be one that opens a block. -/
def Scan.token (s : Scan) (kind : Kind) (opens : Bool) : Scan :=
  match kind with
  | .keyword .asyncKw => { s with asyncPending := true }
  | .keyword .functionKw =>
    { s with headerPending := s.headerPending || ! s.asyncPending, asyncPending := false }
  | .symbol .leftBrace => s.openBrace
  | .symbol .rightBrace => s.closeBrace
  | .symbol .semicolon => { s with asyncPending := false }
  | .symbol .arrow =>
    { s with
      headerPending := s.headerPending || (opens && ! s.asyncPending)
      asyncPending := false }
  | _ => s

/-- The words that the scan looks for. -/
def isFunctionWord (kind : Kind) : Bool :=
  kind = .keyword .asyncKw || kind = .keyword .functionKw

/-- A symbol that ends in the first character of an arrow. -/
def endsInEqual : Kind → Bool
  | .symbol s => s.text.toList.getLast? = some '='
  | _ => false

/-- The block that an arrow opens, if the scan can see it, begins on the line. -/
def opensBlock (text : List Char) : Bool :=
  (trimStart (lineOf text)).head? = some '{'

/-- The lexeme does not run together with its neighbours: it is no word that the scan looks for
in the middle of what the scan takes for one word, and it makes no arrow with what follows. -/
structure Separate (s : Scan) (found : Lexeme) : Prop where
  word : isFunctionWord found.kind = true → s.inside = .code
  arrow : endsInEqual found.kind = true → found.rest.head? ≠ some '>'

/-- The scan goes over the lexeme as if it had read the token. -/
structure Takes (s : Scan) (text : List Char) (found : Lexeme) (s' : Scan) : Prop where
  scans : Scans s text s' found.rest
  settled : s'.Settled
  sawCode : s'.sawCode = true
  word : s'.inside = .word → found.kind.isNumeral = true ∨ found.rest.takeWhile isNamePart = []
  effect : Separate s found →
    s'.bare = (({ s with sawCode := true } : Scan).token found.kind (opensBlock found.rest)).bare

/-! ## Words -/

/-- A scan inside of a word goes over the parts of words. -/
theorem scans_wordParts (hs : s.inside = .word) (hfront : ∀ c ∈ front, isWordPart c = true) :
    Scans s (front ++ rest) s rest := by
  induction front with
  | nil => exact Scans.refl s rest
  | cons c front ih =>
      have hc : isWordPart c = true := hfront c List.mem_cons_self
      have hblank : isBlank c = false := by
        cases hblank : isBlank c with
        | false => rfl
        | true => simp [isWordPart_of_isBlank hblank] at hc
      have hchar : s.char c (lineOf (front ++ rest)) = (s, 0) := by
        rw [Scan.char, hs]
        simp [hc]
      exact (Scans.char (ne_newline_of_not_blank hblank) (startsReturn_of_not_blank hblank)
        hchar).trans (ih fun d hd => hfront d (List.mem_cons_of_mem c hd))

/-- Behind the name parts at the front no other word part follows. -/
def WordEnds (text : List Char) : Prop :=
  ∀ d ∈ (text.dropWhile isNamePart).head?, isWordPart d = false

theorem takeWhile_lineOf (h : WordEnds text) :
    (lineOf text).takeWhile isWordPart = text.takeWhile isNamePart := by
  induction text with
  | nil => rfl
  | cons c text ih =>
      cases hc : isNamePart c with
      | true =>
          have hpart : isWordPart c = true := isWordPart_of_isNamePart hc
          have hblank : isBlank c = false := by
            cases hblank : isBlank c with
            | false => rfl
            | true => simp [isWordPart_of_isBlank hblank] at hpart
          have hends : WordEnds text := by
            intro d hd
            exact h d (by rwa [List.dropWhile_cons, hc, if_pos rfl])
          rw [lineOf_cons (ne_newline_of_not_blank hblank) (startsReturn_of_not_blank hblank),
            List.takeWhile_cons, List.takeWhile_cons, hpart, hc, if_pos rfl, if_pos rfl, ih hends]
      | false =>
          have hpart : isWordPart c = false := h c (by simp [hc])
          rcases lineOf_cons_cases c text with ⟨hnil, -⟩ | hcons
          · simp [hnil, hc]
          · simp [hcons, hc, hpart]

theorem word_async (s : Scan) :
    s.word "async".toList = { s with inside := .word, asyncPending := true } := by
  rw [Scan.word, if_pos rfl]

theorem word_function (s : Scan) :
    s.word "function".toList =
      { s with
        inside := .word, headerPending := s.headerPending || ! s.asyncPending
        asyncPending := false } := by
  rw [Scan.word, if_neg (by decide), if_pos rfl]

theorem word_other {word : List Char} (hasync : word ≠ "async".toList)
    (hfunction : word ≠ "function".toList) : s.word word = { s with inside := .word } := by
  rw [Scan.word, if_neg hasync, if_neg hfunction]

theorem text_of_ofText? {text : String} {k : Keyword} (h : Keyword.ofText? text = some k) :
    k.text = text := by
  have hfound := List.find?_some h
  simpa using hfound

theorem wordLexeme_async (h : text.takeWhile isNamePart = "async".toList) :
    (wordLexeme text).kind = .keyword .asyncKw := by
  have hkeyword : Keyword.ofText? "async" = some .asyncKw := Keyword.ofText?_text .asyncKw
  simp [wordLexeme, h, hkeyword]

theorem wordLexeme_function (h : text.takeWhile isNamePart = "function".toList) :
    (wordLexeme text).kind = .keyword .functionKw := by
  have hkeyword : Keyword.ofText? "function" = some .functionKw :=
    Keyword.ofText?_text .functionKw
  simp [wordLexeme, h, hkeyword]

/-- A word that is neither of the two leaves the scan as it is. -/
theorem token_wordLexeme (hasync : text.takeWhile isNamePart ≠ "async".toList)
    (hfunction : text.takeWhile isNamePart ≠ "function".toList) (opens : Bool) :
    s.token (wordLexeme text).kind opens = s := by
  unfold wordLexeme
  dsimp only
  split
  · rename_i k hk
    have hk' : k.text.toList = text.takeWhile isNamePart := by
      rw [text_of_ofText? hk, String.toList_ofList]
    cases k <;> first | rfl | exact absurd hk'.symm ‹_›
  · rfl

/-- What the scan does with a word in code is what the token does to it. -/
theorem bare_word (text : List Char) (opens : Bool) :
    (s.word (text.takeWhile isNamePart)).bare = (s.token (wordLexeme text).kind opens).bare ∧
      (s.word (text.takeWhile isNamePart)).inside = .word ∧
      (s.word (text.takeWhile isNamePart)).sawCode = s.sawCode := by
  by_cases hasync : text.takeWhile isNamePart = "async".toList
  · rw [wordLexeme_async hasync, hasync, word_async]
    exact ⟨rfl, rfl, rfl⟩
  · by_cases hfunction : text.takeWhile isNamePart = "function".toList
    · rw [wordLexeme_function hfunction, hfunction, word_function]
      exact ⟨rfl, rfl, rfl⟩
    · rw [token_wordLexeme hasync hfunction opens, word_other hasync hfunction]
      exact ⟨rfl, rfl, rfl⟩

theorem not_blank_of_isNamePart (h : isNamePart c = true) : isBlank c = false := by
  cases hblank : isBlank c with
  | false => rfl
  | true =>
      have hpart := isWordPart_of_isNamePart h
      simp [isWordPart_of_isBlank hblank] at hpart

/-- In code a word starts at every character at which one may start. -/
theorem code_wordStart (hblank : isBlank c = false) (hslash : c ≠ '/') (hequal : c ≠ '=')
    (hstart : isWordStart c = true) (rest : List Char) :
    s.code c rest =
      (({ s with sawCode := true } : Scan).word ((c :: rest).takeWhile isWordPart), 0) := by
  simp [Scan.code, hslash, hequal, hblank, hstart]

theorem code_nameStart (hc : isNameStart c = true) (rest : List Char) :
    s.code c rest =
      (({ s with sawCode := true } : Scan).word ((c :: rest).takeWhile isWordPart), 0) := by
  have hpart : isNamePart c = true := isNamePart_of_isNameStart hc
  have hslash : c ≠ '/' := by
    rintro rfl
    exact absurd hpart (by decide)
  have hequal : c ≠ '=' := by
    rintro rfl
    exact absurd hpart (by decide)
  refine code_wordStart (not_blank_of_isNamePart hpart) hslash hequal ?_ rest
  rw [isWordStart_of_ascii (ascii_of_isNamePart hpart), hc]

theorem takeWhile_dropWhile (text : List Char) :
    (text.dropWhile isNamePart).takeWhile isNamePart = [] := by
  rw [List.takeWhile_eq_nil_iff]
  exact fun hlength => List.dropWhile_get_zero_not isNamePart text hlength

/-- Inside of a word the scan goes over the name parts at the front. -/
theorem scans_nameParts (hs : s.inside = .word) (text : List Char) :
    Scans s text s (text.dropWhile isNamePart) := by
  intro before
  have hparts : ∀ d ∈ text.takeWhile isNamePart, isWordPart d = true :=
    fun d hd => isWordPart_of_isNamePart (List.mem_takeWhile_imp hd)
  have hscans : kindsAhead before s (text.takeWhile isNamePart ++ text.dropWhile isNamePart) =
      kindsAhead before s (text.dropWhile isNamePart) :=
    scans_wordParts hs hparts before
  rwa [List.takeWhile_append_dropWhile] at hscans

theorem takes_word_code (hs : s.inside = .code) (hc : isNameStart c = true)
    (hends : WordEnds (c :: rest)) :
    Takes s (c :: rest) (wordLexeme (c :: rest))
      (({ s with sawCode := true } : Scan).word ((c :: rest).takeWhile isNamePart)) := by
  have hpart : isNamePart c = true := isNamePart_of_isNameStart hc
  have hblank : isBlank c = false := not_blank_of_isNamePart hpart
  obtain ⟨hbare, hinside, hcode⟩ :=
    bare_word (s := { s with sawCode := true }) (c :: rest)
      (opensBlock (wordLexeme (c :: rest)).rest)
  have hline : lineOf (c :: rest) = c :: lineOf rest :=
    lineOf_cons (ne_newline_of_not_blank hblank) (startsReturn_of_not_blank hblank)
  have hchar : s.char c (lineOf rest) =
      (({ s with sawCode := true } : Scan).word ((c :: rest).takeWhile isNamePart), 0) := by
    rw [Scan.char, hs]
    dsimp only
    rw [code_nameStart hc, ← hline, takeWhile_lineOf hends, hs]
  have hdrop : (c :: rest).dropWhile isNamePart = rest.dropWhile isNamePart := by
    rw [List.dropWhile_cons, hpart, if_pos rfl]
  constructor
  · rw [wordLexeme, hdrop]
    exact (Scans.char (ne_newline_of_not_blank hblank) (startsReturn_of_not_blank hblank)
      hchar).trans (scans_nameParts hinside rest)
  · exact Or.inr ⟨hinside, hcode⟩
  · exact hcode
  · exact fun _ => Or.inr (takeWhile_dropWhile _)
  · exact fun _ => hbare

theorem takes_word_inside (hs : s.inside = .word) (hcode : s.sawCode = true) (text : List Char) :
    Takes s text (wordLexeme text) s := by
  constructor
  · exact scans_nameParts hs text
  · exact Or.inr ⟨hs, hcode⟩
  · exact hcode
  · exact fun _ => Or.inr (takeWhile_dropWhile _)
  · intro hseparate
    have hother : ∀ k, (wordLexeme text).kind = .keyword k → k ≠ .asyncKw ∧ k ≠ .functionKw := by
      intro k hk
      have hword : isFunctionWord (.keyword k) = true → s.inside = .code := by
        rw [← hk]
        exact hseparate.word
      constructor <;> rintro rfl <;> exact absurd (hs.symm.trans (hword rfl)) nofun
    have hasync : text.takeWhile isNamePart ≠ "async".toList :=
      fun h => (hother _ (wordLexeme_async h)).1 rfl
    have hfunction : text.takeWhile isNamePart ≠ "function".toList :=
      fun h => (hother _ (wordLexeme_function h)).2 rfl
    rw [token_wordLexeme hasync hfunction]
    simp [Scan.bare, hcode]

theorem takes_wordLexeme (hs : s.Settled) (hc : isNameStart c = true)
    (hends : WordEnds (c :: rest)) : ∃ s', Takes s (c :: rest) (wordLexeme (c :: rest)) s' := by
  rcases hs with hs | ⟨hs, hcode⟩
  · exact ⟨_, takes_word_code hs hc hends⟩
  · exact ⟨s, takes_word_inside hs hcode (c :: rest)⟩

/-! ## Marks -/

/-- The scan goes over a part of the text that is code and does nothing else to it. -/
structure Passes (s : Scan) (text : List Char) (s' : Scan) (rest : List Char) : Prop where
  scans : Scans s text s' rest
  settled : s'.Settled
  sawCode : s'.sawCode = true
  bare : s'.bare = ({ s with sawCode := true } : Scan).bare

theorem Passes.trans {s₁ s₂ s₃ : Scan} {text₁ text₂ text₃ : List Char}
    (h : Passes s₁ text₁ s₂ text₂) (h' : Passes s₂ text₂ s₃ text₃) :
    Passes s₁ text₁ s₃ text₃ := by
  refine ⟨h.scans.trans h'.scans, h'.settled, h'.sawCode, ?_⟩
  have hcode : ({ s₂ with sawCode := true } : Scan) = s₂ := by rw [← h.sawCode]
  rw [h'.bare, hcode, h.bare]

/-- A character that does nothing to a scan in code, apart from its being code. -/
def isMark (c : Char) : Bool :=
  ! isBlank c && ! isWordStart c && ! ['"', '\'', '\x60', '{', '}', ';'].contains c

theorem code_mark (hc : isMark c = true)
    (hslash : c = '/' → rest.head? ≠ some '/' ∧ rest.head? ≠ some '*')
    (harrow : ¬ (c = '=' ∧ rest.head? = some '>')) :
    s.code c rest = ({ s with sawCode := true }, 0) := by
  simp only [isMark, Bool.and_eq_true, Bool.not_eq_true', List.contains_eq_mem,
    decide_eq_false_iff_not, List.mem_cons, List.not_mem_nil, or_false, not_or] at hc
  obtain ⟨⟨hblank, hstart⟩, hquote, happ, hgrave, hopen, hclose, hsemicolon⟩ := hc
  have hline : ¬ (c = '/' ∧ rest.head? = some '/') := fun h => (hslash h.1).1 h.2
  have hblock : ¬ (c = '/' ∧ rest.head? = some '*') := fun h => (hslash h.1).2 h.2
  unfold Scan.code
  simp only [Bool.and_eq_true, decide_eq_true_eq, if_neg hline, if_neg hblock, if_neg harrow,
    hblank, hstart]
  split <;> first | contradiction | rfl

/-! ## Numerals -/

/-- A character of a decimal numeral. -/
def IsDecimalMark (c : Char) : Prop :=
  c.isDigit = true ∨ c ∈ ['_', 'n', 'e', 'E', '.', '+', '-']

theorem isMark_of_isDigit (h : c.isDigit = true) : isMark c = true := by
  have hpart : isNamePart c = true := isNamePart_of_isDigit h
  have hstart : isWordStart c = false := by
    rw [isWordStart_of_ascii (ascii_of_isNamePart hpart)]
    refine Bool.eq_false_iff.mpr fun hstart => ?_
    simp [isDigit_of_isNameStart hstart] at h
  have hother : c ∉ ['"', '\'', '\x60', '{', '}', ';'] := by
    intro hmem
    simp only [List.mem_cons, List.not_mem_nil, or_false] at hmem
    rcases hmem with rfl | rfl | rfl | rfl | rfl | rfl <;> exact absurd h (by decide)
  simp [isMark, not_blank_of_isNamePart hpart, hstart, hother]

theorem IsDecimalMark.facts (hc : IsDecimalMark c) : isBlank c = false ∧ c ≠ '/' ∧ c ≠ '=' ∧
    c ≠ 'a' ∧ c ≠ 'f' ∧ (isWordStart c = true ∨ isMark c = true) := by
  rcases hc with hdigit | hmem
  · refine ⟨not_blank_of_isNamePart (isNamePart_of_isDigit hdigit), ?_, ?_, ?_, ?_,
      Or.inr (isMark_of_isDigit hdigit)⟩ <;>
    · rintro rfl
      exact absurd hdigit (by decide)
  · simp only [List.mem_cons, List.not_mem_nil, or_false] at hmem
    rcases hmem with rfl | rfl | rfl | rfl | rfl | rfl | rfl <;> decide

/-- No word that the scan looks for begins in a decimal numeral. -/
theorem code_decimalMark (hc : IsDecimalMark c) (hs : s.inside = .code) (rest : List Char) :
    ∃ inside, (inside = .code ∨ inside = .word) ∧
      s.code c rest = ({ s with inside, sawCode := true }, 0) := by
  obtain ⟨hblank, hslash, hequal, ha, hf, hstart | hmark⟩ := hc.facts
  · refine ⟨.word, Or.inr rfl, ?_⟩
    have hword : (c :: rest).takeWhile isWordPart = c :: rest.takeWhile isWordPart := by
      rw [List.takeWhile_cons, isWordPart_of_isWordStart hstart, if_pos rfl]
    rw [code_wordStart hblank hslash hequal hstart, hword, word_other]
    · exact fun h => ha (List.head_eq_of_cons_eq h)
    · exact fun h => hf (List.head_eq_of_cons_eq h)
  · refine ⟨.code, Or.inl rfl, ?_⟩
    rw [code_mark hmark (fun h => absurd h hslash) (fun h => hequal h.1), hs]

/-- Inside of a word a part of a word is passed over. -/
theorem passes_wordPart (hs : s.Settled) (hinside : s.inside = .word) (hc : isWordPart c = true) :
    Passes s (c :: rest) s rest := by
  have hcode : s.sawCode = true := by
    rcases hs with hs | ⟨-, hcode⟩
    · rw [hs] at hinside
      cases hinside
    · exact hcode
  have hfront : ∀ d ∈ [c], isWordPart d = true := by simpa using hc
  have hscans : Scans s ([c] ++ rest) s rest := scans_wordParts hinside hfront
  exact ⟨hscans, hs, hcode, by rw [← hcode]⟩

theorem passes_decimalMark (hs : s.Settled) (hc : IsDecimalMark c) :
    ∃ s', Passes s (c :: rest) s' rest := by
  have hblank : isBlank c = false := hc.facts.1
  by_cases hword : s.inside = .word ∧ isWordPart c = true
  · exact ⟨s, passes_wordPart hs hword.1 hword.2⟩
  · obtain ⟨inside, hinside, hcode⟩ :=
      code_decimalMark (s := { s with inside := .code }) hc rfl (lineOf rest)
    have hpart : s.inside = .word → isWordPart c = false := fun hw => by
      simpa using fun hpart => hword ⟨hw, hpart⟩
    have hchar : s.char c (lineOf rest) = ({ s with inside, sawCode := true }, 0) :=
      (char_of_settled hs hpart).trans hcode
    have hscans := Scans.char (ne_newline_of_not_blank hblank) (startsReturn_of_not_blank hblank)
      hchar
    exact ⟨_, hscans, hinside.imp id fun h => ⟨h, rfl⟩, rfl, rfl⟩

theorem passes_decimalMarks (hs : s.Settled) (hcode : s.sawCode = true)
    (hfront : ∀ c ∈ front, IsDecimalMark c) : ∃ s', Passes s (front ++ rest) s' rest := by
  induction front generalizing s with
  | nil => exact ⟨s, Scans.refl s rest, hs, hcode, by rw [← hcode]⟩
  | cons c front ih =>
      have hthis : IsDecimalMark c := hfront c List.mem_cons_self
      have hothers : ∀ d ∈ front, IsDecimalMark d :=
        fun d hd => hfront d (List.mem_cons_of_mem c hd)
      obtain ⟨s₁, hfirst⟩ : ∃ s₁, Passes s (c :: (front ++ rest)) s₁ (front ++ rest) :=
        passes_decimalMark hs hthis
      obtain ⟨s₂, hrest⟩ := ih hfirst.settled hfirst.sawCode hothers
      exact ⟨s₂, hfirst.trans hrest⟩

/-- The mark of a hexadecimal numeral begins a word, or goes on one. -/
theorem passes_hexMark (hs : s.Settled) (hc : c = 'x' ∨ c = 'X') :
    ∃ s', Passes s (c :: rest) s' rest ∧ s'.inside = .word := by
  have hfacts : isBlank c = false ∧ c ≠ '/' ∧ c ≠ '=' ∧ c ≠ 'a' ∧ c ≠ 'f' ∧
      isWordStart c = true := by
    rcases hc with rfl | rfl <;> decide
  obtain ⟨hblank, hslash, hequal, ha, hf, hstart⟩ := hfacts
  have hpart : isWordPart c = true := isWordPart_of_isWordStart hstart
  rcases hs with hs | hs
  · have hword : (c :: lineOf rest).takeWhile isWordPart =
        c :: (lineOf rest).takeWhile isWordPart := by
      rw [List.takeWhile_cons, hpart, if_pos rfl]
    have hchar : s.char c (lineOf rest) = ({ s with inside := .word, sawCode := true }, 0) := by
      rw [Scan.char, hs]
      dsimp only
      rw [code_wordStart hblank hslash hequal hstart, hword, word_other]
      · exact fun h => ha (List.head_eq_of_cons_eq h)
      · exact fun h => hf (List.head_eq_of_cons_eq h)
    have hscans := Scans.char (ne_newline_of_not_blank hblank) (startsReturn_of_not_blank hblank)
      hchar
    exact ⟨_, ⟨hscans, Or.inr ⟨rfl, rfl⟩, rfl, rfl⟩, rfl⟩
  · exact ⟨s, passes_wordPart (Or.inr hs) hs.1 hpart, hs.1⟩

theorem isDecimalMark_of_isDigitMark (h : isDigitMark c = true) : IsDecimalMark c := by
  have h' : c.isDigit = true ∨ c = '_' := by simpa [isDigitMark] using h
  exact h'.imp_right fun h => by simp [h]

theorem isWordPart_of_isHexMark (h : isHexMark c = true) : isWordPart c = true := by
  refine isWordPart_of_isNamePart ?_
  simp only [isHexMark, isNamePart, isAlphanum_iff, isDigit_iff, Bool.or_eq_true,
    Bool.and_eq_true, decide_eq_true_eq, beq_iff_eq, Char.le_def, UInt32.le_iff_toNat_le] at h ⊢
  rcases h with ((h | h) | h) | rfl
  · exact Or.inl (Or.inl (Or.inr h))
  · simp at h ⊢
    omega
  · simp at h ⊢
    omega
  · decide

theorem isDecimalMark_fraction {fraction : List Char} (h : IsFraction fraction) :
    ∀ c ∈ fraction, IsDecimalMark c := by
  rcases h with rfl | ⟨digits, rfl, hdigits⟩
  · exact List.forall_mem_nil _
  · exact List.forall_mem_cons.mpr ⟨Or.inr (by decide), fun c hc => Or.inl (hdigits c hc)⟩

theorem isDecimalMark_exponent {exponent : List Char} (h : IsExponent exponent) :
    ∀ c ∈ exponent, IsDecimalMark c := by
  rcases h with rfl | ⟨mark, sign, digits, rfl, hmark, hsign, -, hdigits⟩
  · exact List.forall_mem_nil _
  · refine List.forall_mem_cons.mpr ⟨?_, List.forall_mem_append.mpr
      ⟨?_, fun c hc => Or.inl (hdigits c hc)⟩⟩
    · rcases hmark with rfl | rfl <;> exact Or.inr (by decide)
    · rcases hsign with rfl | rfl | rfl
      · exact List.forall_mem_nil _
      · exact List.forall_mem_singleton.mpr (Or.inr (by decide))
      · exact List.forall_mem_singleton.mpr (Or.inr (by decide))

/-- The characters of a numeral are those of decimal numerals, or it is hexadecimal. -/
theorem numeral_marks {first : Char} {found : Lexeme} (hstart : StartsNumeral first rest)
    (h : numberLexeme first rest = .ok found) :
    (∃ marks, found.text = first :: marks ∧ ∀ c ∈ first :: marks, IsDecimalMark c) ∨
      ∃ x digits, found.text = '0' :: x :: digits ∧ (x = 'x' ∨ x = 'X') ∧
        ∀ c ∈ digits, isWordPart c = true := by
  have hfirst : IsDecimalMark first := by
    rcases hstart with hdigit | ⟨rfl, -⟩
    · exact Or.inl hdigit
    · exact Or.inr (by decide)
  have hform := numberLexeme_form first rest
  generalize numberLexeme first rest = result at hform h
  cases hform with
  | @hexadecimal mark hex hzero hrest hmark =>
      unfold hexLexeme at h
      dsimp only at h
      split at h
      · cases h
        exact Or.inr ⟨mark, _, rfl, hmark, fun c hc =>
          isWordPart_of_isHexMark (List.mem_takeWhile_imp hc)⟩
      · cases h
  | bigint hpoint hmarks =>
      cases h
      refine Or.inl ⟨_, rfl, List.forall_mem_cons.mpr
        ⟨hfirst, List.forall_mem_append.mpr
          ⟨fun c hc => ?_, List.forall_mem_singleton.mpr (Or.inr (by decide))⟩⟩⟩
      exact isDecimalMark_of_isDigitMark (hmarks c hc)
  | @decimal fraction behind hfraction hpoint =>
      unfold numberLexeme.finish at h
      dsimp only at h
      split at h
      · cases h
        refine Or.inl ⟨_, rfl, List.forall_mem_cons.mpr ⟨hfirst, List.forall_mem_append.mpr
          ⟨List.forall_mem_append.mpr ⟨fun c hc => ?_, isDecimalMark_fraction hfraction⟩,
            isDecimalMark_exponent (isExponent_exponentPart behind)⟩⟩⟩
        exact isDecimalMark_of_isDigitMark (List.mem_takeWhile_imp hc)
      · cases h

theorem passes_numeral {first : Char} {found : Lexeme} (hs : s.Settled)
    (hstart : StartsNumeral first rest) (h : numberLexeme first rest = .ok found) :
    ∃ s', Passes s (found.text ++ found.rest) s' found.rest := by
  rcases numeral_marks hstart h with ⟨marks, htext, hmarks⟩ | ⟨x, digits, htext, hx, hdigits⟩
  · have hfirst : IsDecimalMark first := hmarks first List.mem_cons_self
    obtain ⟨s₁, hfront⟩ : ∃ s₁, Passes s (first :: (marks ++ found.rest)) s₁
        (marks ++ found.rest) := passes_decimalMark hs hfirst
    obtain ⟨s₂, hbehind⟩ : ∃ s₂, Passes s₁ (marks ++ found.rest) s₂ found.rest :=
      passes_decimalMarks hfront.settled hfront.sawCode fun c hc =>
        hmarks c (List.mem_cons_of_mem first hc)
    rw [htext]
    exact ⟨s₂, hfront.trans hbehind⟩
  · obtain ⟨s₁, hzero⟩ : ∃ s₁, Passes s ('0' :: x :: (digits ++ found.rest)) s₁
        (x :: (digits ++ found.rest)) := passes_decimalMark hs (Or.inl (by decide))
    obtain ⟨s₂, hmark, hinside⟩ : ∃ s₂, Passes s₁ (x :: (digits ++ found.rest)) s₂
        (digits ++ found.rest) ∧ s₂.inside = .word := passes_hexMark hzero.settled hx
    have hbehind : Passes s₂ (digits ++ found.rest) s₂ found.rest :=
      ⟨scans_wordParts hinside hdigits, hmark.settled, hmark.sawCode, by rw [← hmark.sawCode]⟩
    rw [htext]
    exact ⟨s₂, (hzero.trans hmark).trans hbehind⟩

theorem takes_numeral {first : Char} {found : Lexeme} (hs : s.Settled)
    (hstart : StartsNumeral first rest) (h : numberLexeme first rest = .ok found) :
    ∃ s', Takes s (first :: rest) found s' := by
  have hline : first ≠ '\n' := by
    rcases hstart with hdigit | ⟨rfl, -⟩
    · rintro rfl
      exact absurd hdigit (by decide)
    · decide
  obtain ⟨hkind, -, hparts⟩ := numberLexeme_isNumeral hline h
  obtain ⟨s', hpasses⟩ := passes_numeral hs hstart h
  rw [hparts.whole] at hpasses
  refine ⟨s', hpasses.scans, hpasses.settled, hpasses.sawCode, fun _ => Or.inl hkind, fun _ => ?_⟩
  rw [hpasses.bare]
  cases hfound : found.kind <;> first | rfl | (rw [hfound] at hkind; cases hkind)

/-! ## Texts -/

theorem prefix_stringBody {quote : Char} {value taken text : List Char}
    {found : List Char × List Char × List Char}
    (h : stringBody quote value taken text = some found) : taken.reverse <+: found.2.1 := by
  fun_induction stringBody quote value taken text with
  | case1 value taken c rest ih =>
      refine List.IsPrefix.trans ?_ (ih h)
      simp
  | case2 value taken rest =>
      cases h
      simp
  | case3 => cases h
  | case4 value taken c rest _ hquote hmark ih =>
      refine List.IsPrefix.trans ?_ (ih h)
      simp
  | case5 => cases h

/-- The mark at either end of a text. -/
def IsQuote (c : Char) : Prop :=
  c = '"' ∨ c = '\''

theorem IsQuote.facts {quote : Char} (h : IsQuote quote) :
    isBlank quote = false ∧ isWordPart quote = false ∧ quote ≠ '\n' ∧ quote ≠ '\\' := by
  rcases h with rfl | rfl <;> decide

/-- A text does not go on over a newline that is not escaped. -/
theorem startsReturn_stringBody {quote : Char} (hquote : IsQuote quote) (c : Char)
    {value taken : List Char} {found : List Char × List Char × List Char}
    (h : stringBody quote value taken rest = some found) : startsReturn (c :: rest) = false := by
  cases hr : startsReturn (c :: rest) with
  | false => rfl
  | true =>
      unfold startsReturn at hr
      split at hr
      · rename_i heq
        cases heq
        rw [stringBody, if_neg hquote.facts.2.2.1.symm, if_pos (by decide)] at h
        · cases h
        · rintro d more ⟨⟩
      · cases hr

/-- Inside of a text without line breaks the scan finds its end where the lexer does. -/
theorem scans_stringBody {quote : Char} (hquote : IsQuote quote) {value taken : List Char}
    {found : List Char × List Char × List Char}
    (h : stringBody quote value taken text = some found) (hline : '\n' ∉ found.2.1)
    (hs : s.inside = .text quote) : Scans s text { s with inside := .code } found.2.2 := by
  obtain ⟨hblank, -, hnewline, hbackslash⟩ := hquote.facts
  fun_induction stringBody quote value taken text with
  | case1 value taken c rest ih =>
      have hc : c ≠ '\n' := by
        rintro rfl
        exact hline ((prefix_stringBody h).subset (by simp))
      have hchar : s.char '\\' (lineOf (c :: rest)) = (s, 1) := by
        rw [Scan.char, hs]
        simp
      intro before
      rw [kindsAhead_pair (by decide) (startsReturn_of_not_blank (by decide)) hc
        (startsReturn_stringBody hquote c h) hchar]
      exact ih h before
  | case2 value taken rest _ =>
      cases h
      have hchar : s.char quote (lineOf rest) = ({ s with inside := .code }, 0) := by
        rw [Scan.char, hs]
        simp [hbackslash]
      exact Scans.char hnewline (startsReturn_of_not_blank hblank) hchar
  | case3 => cases h
  | case4 value taken c rest _ hend hmark ih =>
      obtain ⟨hc, hescape⟩ : c ≠ '\n' ∧ c ≠ '\\' := by simpa using hmark
      have hchar : s.char c (lineOf rest) = (s, 0) := by
        rw [Scan.char, hs]
        simp [hend, hescape]
      exact (Scans.char hc (startsReturn_stringBody hquote c h) hchar).trans (ih h)
  | case5 => cases h

theorem code_quote (rest : List Char) :
    s.code '"' rest = ({ s with inside := .text '"', sawCode := true }, 0) := by
  have hfacts : isBlank '"' = false ∧ isWordStart '"' = false := by decide
  simp [Scan.code, hfacts]

theorem code_apostrophe (rest : List Char) :
    s.code '\'' rest = ({ s with inside := .text '\'', sawCode := true }, 0) := by
  have hfacts : isBlank '\'' = false ∧ isWordStart '\'' = false := by decide
  simp [Scan.code, hfacts]

theorem takes_string {quote : Char} (hquote : IsQuote quote) (hs : s.Settled)
    {value front after : List Char}
    (h : stringBody quote [] [quote] rest = some (value, front, after)) (hline : '\n' ∉ front) :
    ∃ s', Takes s (quote :: rest) ⟨.string (String.ofList value), front, after⟩ s' := by
  obtain ⟨hblank, hpart, hnewline, -⟩ := hquote.facts
  have hchar : s.char quote (lineOf rest) =
      ({ s with inside := .text quote, sawCode := true }, 0) := by
    rw [char_of_settled hs fun _ => hpart]
    rcases hquote with rfl | rfl
    · exact code_quote _
    · exact code_apostrophe _
  have hbody : Scans { s with inside := .text quote, sawCode := true } rest
      { s with inside := .code, sawCode := true } after :=
    scans_stringBody hquote h hline rfl
  refine ⟨_, (Scans.char hnewline (startsReturn_of_not_blank hblank) hchar).trans hbody,
    Or.inl rfl, rfl, nofun, fun _ => rfl⟩

/-! ## Symbols -/

theorem code_leftBrace (rest : List Char) :
    s.code '{' rest = (({ s with sawCode := true } : Scan).openBrace, 0) := by
  have hfacts : isBlank '{' = false ∧ isWordStart '{' = false := by decide
  simp [Scan.code, hfacts]

theorem code_rightBrace (rest : List Char) :
    s.code '}' rest = (({ s with sawCode := true } : Scan).closeBrace, 0) := by
  have hfacts : isBlank '}' = false ∧ isWordStart '}' = false := by decide
  simp [Scan.code, hfacts]

theorem code_semicolon (rest : List Char) :
    s.code ';' rest = ({ s with sawCode := true, asyncPending := false }, 0) := by
  have hfacts : isBlank ';' = false ∧ isWordStart ';' = false := by decide
  simp [Scan.code, hfacts]

theorem code_arrow (h : rest.head? = some '>') :
    s.code '=' rest = (({ s with sawCode := true } : Scan).arrow rest.tail, 1) := by
  have hblank : isBlank '=' = false := by decide
  simp [Scan.code, hblank, h]

theorem scans_arrow (hs : s.Settled) :
    Scans s ('=' :: '>' :: rest)
      (({ s with inside := .code, sawCode := true } : Scan).arrow (lineOf rest)) rest := by
  have hline : lineOf ('>' :: rest) = '>' :: lineOf rest :=
    lineOf_cons (by decide) (startsReturn_of_not_blank (by decide))
  have hchar : s.char '=' (lineOf ('>' :: rest)) =
      (({ s with inside := .code, sawCode := true } : Scan).arrow (lineOf rest), 1) := by
    rw [char_of_settled hs fun _ => by decide, hline, code_arrow rfl, List.tail_cons]
  exact fun before => kindsAhead_pair (by decide) (startsReturn_of_not_blank (by decide))
    (by decide) (startsReturn_of_not_blank (by decide)) hchar

/-- A character that may be part of a symbol without an effect. -/
structure IsSign (c : Char) : Prop where
  mark : isMark c = true
  notPart : isWordPart c = false

/-- The characters make no arrow. -/
def NoArrow (c d : Char) : Prop :=
  ¬ (c = '=' ∧ d = '>')

instance : DecidableRel NoArrow :=
  fun c d => inferInstanceAs (Decidable (¬ (c = '=' ∧ d = '>')))

/-- The scan is in code behind the text, with the state that it had before except where it takes
a part of the text for an arrow. -/
structure Crosses (s : Scan) (front rest : List Char) (s' : Scan) : Prop where
  scans : Scans s (front ++ rest) s' rest
  inside : s'.inside = .code
  sawCode : s'.sawCode = true
  bare : List.IsChain NoArrow (front ++ rest.take 1) →
    s'.bare = ({ s with sawCode := true } : Scan).bare

theorem IsSign.not_blank (hc : IsSign c) : isBlank c = false := by
  have h := hc.mark
  simp only [isMark, Bool.and_eq_true, Bool.not_eq_true'] at h
  exact h.1.1

theorem crosses_sign (hs : s.Settled) (hc : IsSign c)
    (hslash : c = '/' → rest.head? ≠ some '/' ∧ rest.head? ≠ some '*') :
    ∃ s', Crosses s [c] rest s' := by
  have hblank : isBlank c = false := hc.not_blank
  have hsettled : s.char c (lineOf rest) = _ := char_of_settled hs fun _ => hc.notPart
  by_cases harrow : c = '=' ∧ rest.head? = some '>'
  · obtain ⟨rfl, hhead⟩ := harrow
    obtain ⟨more, rfl⟩ := List.head?_eq_some_iff.mp hhead
    let s' : Scan := ({ s with inside := .code, sawCode := true } : Scan).arrow (lineOf more)
    -- the scan has taken the second character too, which it might as well take by itself
    have hsecond : Scans s' ('>' :: more) s' more := by
      have hmark : s'.char '>' (lineOf more) = (s', 0) :=
        code_mark (by decide) (fun h => absurd h (by decide)) fun h => absurd h.1 (by decide)
      exact Scans.char (by decide) (startsReturn_of_not_blank (by decide)) hmark
    refine ⟨s', fun before => ((scans_arrow hs) before).trans (hsecond before).symm, rfl, rfl,
      fun hchain => ?_⟩
    exact absurd ⟨rfl, rfl⟩ (List.isChain_pair.mp hchain)
  · have hslash' : c = '/' →
        (lineOf rest).head? ≠ some '/' ∧ (lineOf rest).head? ≠ some '*' := by
      intro h
      rw [Ne, Ne, head?_lineOf (by decide), head?_lineOf (by decide)]
      exact hslash h
    have harrow' : ¬ (c = '=' ∧ (lineOf rest).head? = some '>') := by
      rwa [head?_lineOf (by decide)]
    have hscans := Scans.char (ne_newline_of_not_blank hblank) (startsReturn_of_not_blank hblank)
      (hsettled.trans (code_mark hc.mark hslash' harrow'))
    exact ⟨_, hscans, rfl, rfl, fun _ => rfl⟩

theorem crosses_signs (hs : s.Settled) (hc : IsSign c)
    (hslash : c = '/' → (front ++ rest).head? ≠ some '/' ∧ (front ++ rest).head? ≠ some '*')
    (hfront : ∀ d ∈ front, IsSign d ∧ d ≠ '/') : ∃ s', Crosses s (c :: front) rest s' := by
  induction front generalizing s c with
  | nil => exact crosses_sign hs hc hslash
  | cons d front ih =>
      obtain ⟨hd, hdslash⟩ := hfront d List.mem_cons_self
      obtain ⟨s₁, hfirst⟩ := crosses_sign hs hc hslash
      obtain ⟨s₂, hothers⟩ := ih (settled_of_code hfirst.inside) hd (fun h => absurd h hdslash)
        fun e he => hfront e (List.mem_cons_of_mem d he)
      refine ⟨s₂, hfirst.scans.trans hothers.scans, hothers.inside, hothers.sawCode,
        fun hchain => ?_⟩
      have hcode : ({ s₁ with sawCode := true } : Scan) = s₁ := by rw [← hfirst.sawCode]
      obtain ⟨hpair, hchain'⟩ := List.isChain_cons_cons.mp hchain
      rw [hothers.bare hchain', hcode, hfirst.bare (List.isChain_pair.mpr hpair)]

/-- The symbols that do something to the scan. -/
def isSignal : Symbol → Bool
  | .leftBrace | .rightBrace | .semicolon | .arrow => true
  | _ => false

instance : DecidablePred IsSign :=
  fun c => decidable_of_iff (isMark c = true ∧ isWordPart c = false)
    ⟨fun h => ⟨h.1, h.2⟩, fun h => ⟨h.mark, h.notPart⟩⟩

theorem signs_of_symbol (m : Symbol) (hm : isSignal m = false) :
    ∃ c front, m.text.toList = c :: front ∧ IsSign c ∧ (∀ d ∈ front, IsSign d ∧ d ≠ '/') ∧
      List.IsChain NoArrow (c :: front) := by
  cases m <;> first
    | exact ⟨_, _, rfl, by decide, forall_of_all (by decide), by decide⟩
    | cases hm

/-- A symbol that does nothing to the scan makes no arrow with what follows, unless it ends in
the first character of one. -/
theorem isChain_symbol {m : Symbol} (hchain : List.IsChain NoArrow m.text.toList)
    (hend : endsInEqual (.symbol m) = true → rest.head? ≠ some '>') :
    List.IsChain NoArrow (m.text.toList ++ rest.take 1) := by
  refine List.isChain_append.mpr ⟨hchain, ?_, ?_⟩
  · cases rest with
    | nil => exact List.isChain_nil
    | cons d rest => exact List.isChain_singleton d
  · rintro c hc d hd ⟨rfl, rfl⟩
    refine hend ?_ ?_
    · simpa [endsInEqual] using hc
    · cases rest <;> simp_all

theorem takes_sign {m : Symbol} (hs : s.Settled) (hm : isSignal m = false)
    (htext : text = m.text.toList ++ rest)
    (hslash : text.head? = some '/' → text.tail.head? ≠ some '/' ∧ text.tail.head? ≠ some '*') :
    ∃ s', Takes s text ⟨.symbol m, m.text.toList, rest⟩ s' := by
  obtain ⟨c, front, hfront, hc, hothers, hchain⟩ := signs_of_symbol m hm
  rw [hfront] at htext
  subst htext
  have hslash' : c = '/' →
      (front ++ rest).head? ≠ some '/' ∧ (front ++ rest).head? ≠ some '*' := by
    rintro rfl
    exact hslash rfl
  obtain ⟨s', hcrosses⟩ := crosses_signs hs hc hslash' hothers
  refine ⟨s', hcrosses.scans, settled_of_code hcrosses.inside, hcrosses.sawCode, ?_, ?_⟩
  · simp [hcrosses.inside]
  · intro hseparate
    rw [← hfront] at hchain
    have hwhole : List.IsChain NoArrow (m.text.toList ++ rest.take 1) :=
      isChain_symbol hchain hseparate.arrow
    rw [hfront] at hwhole
    rw [hcrosses.bare hwhole]
    cases m <;> first | rfl | cases hm

/-- A symbol of one character that the scan looks for. -/
theorem takes_single {m : Symbol} (hs : s.Settled) (hblank : isBlank c = false)
    (hpart : isWordPart c = false)
    (hcode : ∀ rest, ({ s with inside := .code } : Scan).code c rest = (s', 0))
    (hinside : s'.inside = .code) (hsaw : s'.sawCode = true)
    (hbare : ∀ opens,
      s'.bare = (({ s with sawCode := true } : Scan).token (.symbol m) opens).bare) :
    Takes s (c :: rest) ⟨.symbol m, m.text.toList, rest⟩ s' := by
  have hchar : s.char c (lineOf rest) = (s', 0) :=
    (char_of_settled hs fun _ => hpart).trans (hcode _)
  refine ⟨Scans.char (ne_newline_of_not_blank hblank) (startsReturn_of_not_blank hblank) hchar,
    settled_of_code hinside, hsaw, ?_, fun _ => hbare _⟩
  simp [hinside]

theorem openBrace_inside (s : Scan) :
    s.openBrace.inside = s.inside ∧ s.openBrace.sawCode = s.sawCode := by
  unfold Scan.openBrace
  split <;> exact ⟨rfl, rfl⟩

theorem takes_signal {m : Symbol} (hs : s.Settled) (hm : isSignal m = true) :
    ∃ s', Takes s (m.text.toList ++ rest) ⟨.symbol m, m.text.toList, rest⟩ s' := by
  cases m with
  | arrow => exact ⟨_, scans_arrow hs, settled_of_code rfl, rfl, nofun, fun _ => rfl⟩
  | semicolon =>
      exact ⟨_, takes_single hs (by decide) (by decide) code_semicolon rfl rfl fun _ => rfl⟩
  | rightBrace =>
      exact ⟨_, takes_single hs (by decide) (by decide) code_rightBrace rfl rfl fun _ => rfl⟩
  | leftBrace =>
      refine ⟨_, takes_single hs (by decide) (by decide) code_leftBrace ?_ ?_ fun _ => ?_⟩
      · exact (openBrace_inside _).1
      · exact (openBrace_inside _).2
      · cases s.headerPending <;> rfl
  | _ => cases hm

/-! ## Lexemes -/

theorem takes_symbol {found : Lexeme} (hs : s.Settled) (h : symbolLexeme? text = some found)
    (hslash : text.head? = some '/' → text.tail.head? ≠ some '/' ∧ text.tail.head? ≠ some '*') :
    ∃ s', Takes s text found s' := by
  obtain ⟨m, hm, rfl⟩ := Option.map_eq_some_iff.mp h
  have hprefix : m.text.toList <+: text := by
    have hfits := List.find?_some hm
    exact List.isPrefixOf_iff_prefix.mp hfits
  obtain ⟨rest, rfl⟩ := hprefix
  rw [List.drop_left]
  cases hsignal : isSignal m with
  | true => exact takes_signal hs hsignal
  | false => exact takes_sign hs hsignal rfl hslash

/-- The scan goes over every lexeme that is no text with a line break. -/
theorem takes_lexeme {found : Lexeme} (hs : s.Settled) (h : lexeme c rest = .ok found)
    (hline : '\n' ∉ found.text)
    (hslash : c = '/' → rest.head? ≠ some '/' ∧ rest.head? ≠ some '*')
    (hends : isNameStart c = true → WordEnds (c :: rest)) :
    ∃ s', Takes s (c :: rest) found s' := by
  unfold lexeme at h
  split at h
  · rename_i hquote
    split at h
    · rename_i value text after hbody
      cases h
      have hmark : c = '"' ∨ c = '\'' := by simpa using hquote
      exact takes_string hmark hs hbody hline
    · cases h
  · split at h
    · rename_i hstart
      refine takes_numeral hs ?_ h
      simpa [StartsNumeral] using hstart
    · split at h
      · rename_i hname
        cases h
        exact takes_wordLexeme hs hname (hends hname)
      · split at h
        · rename_i found' hfound
          cases h
          exact takes_symbol hs hfound fun hhead => hslash (by simpa using hhead)
        · cases h

end StepTrace.Capture
