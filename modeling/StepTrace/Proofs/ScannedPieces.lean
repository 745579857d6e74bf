import StepTrace.Proofs.ScannedLexemes

/-!
# The scan over the pieces of a text

Where a text is cut into pieces, the scan goes from piece to piece as if it read the tokens
(`Follows.eachLine`): an invariant that survives blanks, comments, the ends of lines and each
token settles the kinds of all lines. The scan knows an arrow that opens a block by what
stands behind it on the line, and that is whether the next piece is a brace that only blanks
separate from the arrow (`opensBlock_of_cut`).

* `opensBlockAt`: the next piece is an opening brace on the line.
* `Apart`: two tokens that the scan can tell apart wherever they stand.
* `Follows`: an invariant of the scan from piece to piece.
-/

namespace StepTrace.Capture

open Text Syntax

variable {l l' : Location} {text rest : List Char} {ps : List Piece}

/-! ## The ends of gaps -/

/-- A gap ends where a lexeme begins that is no comment. -/
theorem skipGap_stops {mode : GapMode} {c : Char} (h : skipGap mode l text = .ok (l', c :: rest)) :
    isBlank c = false ∧ (c = '/' → rest.head? ≠ some '/' ∧ rest.head? ≠ some '*') := by
  fun_induction skipGap mode l text with
  | case1 l text ih => exact ih h
  | case2 l text ih => exact ih h
  | case3 l d text _ _ _ ih => exact ih h
  | case4 l d text hline hblock hblank =>
      cases h
      refine ⟨by simpa using hblank, ?_⟩
      rintro rfl
      constructor
      · intro hhead
        obtain ⟨more, rfl⟩ := List.head?_eq_some_iff.mp hhead
        exact hline more rfl rfl
      · intro hhead
        obtain ⟨more, rfl⟩ := List.head?_eq_some_iff.mp hhead
        exact hblock more rfl rfl
  | case5 l text ih => exact ih h
  | case6 l d text _ ih => exact ih h
  | case7 start l text ih => exact ih h
  | case8 start l d text _ ih => exact ih h
  | case9 l => cases h
  | case10 l => cases h
  | case11 start l => cases h

/-- What the skipping of a gap does first. -/
theorem skipGap_open {c : Char} (hslash : c = '/' → rest.head? ≠ some '/' ∧ rest.head? ≠ some '*') :
    skipGap .open l (c :: rest) =
      if isBlank c then skipGap .open (l.next c) rest else .ok (l, c :: rest) := by
  generalize hmode : GapMode.open = mode
  generalize htext : c :: rest = text
  fun_cases skipGap mode l text with
  | case1 l more =>
      cases htext
      exact absurd rfl (hslash rfl).1
  | case2 l more =>
      cases htext
      exact absurd rfl (hslash rfl).2
  | case3 l d more _ _ hblank =>
      cases htext
      rw [if_pos hblank, hmode]
  | case4 l d more _ _ hblank =>
      cases htext
      rw [if_neg hblank]
  | case9 => cases htext
  | case10 => cases htext
  | case11 => cases htext
  | _ => cases hmode

/-- There is no gap before a character that is no blank and begins no comment. -/
theorem skipGap_none {c : Char} (hblank : isBlank c = false)
    (hslash : c = '/' → rest.head? ≠ some '/' ∧ rest.head? ≠ some '*') :
    skipGap .open l (c :: rest) = .ok (l, c :: rest) := by
  rw [skipGap_open hslash, if_neg (by simp [hblank])]

theorem skipGap_blank {c : Char} (hblank : isBlank c = true) :
    skipGap .open l (c :: rest) = skipGap .open (l.next c) rest := by
  have hslash : c ≠ '/' := by
    rintro rfl
    exact absurd hblank (by decide)
  rw [skipGap_open fun h => absurd h hslash, if_pos hblank]

theorem symbolLexeme?_text {found : Lexeme} (h : symbolLexeme? text = some found) :
    ∃ m, found = ⟨.symbol m, m.text.toList, found.rest⟩ ∧ text = m.text.toList ++ found.rest := by
  obtain ⟨m, hm, rfl⟩ := Option.map_eq_some_iff.mp h
  have hfits : m.text.toList <+: text := by
    have hfound := List.find?_some hm
    exact List.isPrefixOf_iff_prefix.mp hfound
  obtain ⟨rest, rfl⟩ := hfits
  exact ⟨m, rfl, by rw [List.drop_left]⟩

/-- A lexeme that is a symbol is written as the symbol is. -/
theorem lexeme_symbol {c : Char} {found : Lexeme} {m : Symbol} (h : lexeme c rest = .ok found)
    (hkind : found.kind = .symbol m) : c :: rest = m.text.toList ++ found.rest := by
  unfold lexeme at h
  split at h
  · split at h
    · cases h
      cases hkind
    · cases h
  · split at h
    · rename_i hstart
      have hline : c ≠ '\n' := by
        rintro rfl
        simp at hstart
      have hnumeral := (numberLexeme_isNumeral hline h).kind
      rw [hkind] at hnumeral
      cases hnumeral
    · split at h
      · cases h
        unfold wordLexeme at hkind
        dsimp only at hkind
        split at hkind <;> cases hkind
      · split at h
        · rename_i found' hfound
          cases h
          obtain ⟨m', heq, htext⟩ := symbolLexeme?_text hfound
          rw [heq] at hkind
          cases hkind
          exact htext
        · cases h

theorem lexeme_ne_endOfInput {c : Char} {rest : List Char} {found : Lexeme}
    (h : lexeme c rest = .ok found) : found.kind ≠ .endOfInput := by
  unfold lexeme at h
  split at h
  · split at h
    · cases h
      exact nofun
    · cases h
  · split at h
    · rename_i hstart
      have hline : c ≠ '\n' := by
        rintro rfl
        simp at hstart
      have hnumeral := (numberLexeme_isNumeral hline h).kind
      intro hkind
      rw [hkind] at hnumeral
      cases hnumeral
    · split at h
      · cases h
        unfold wordLexeme
        dsimp only
        split <;> exact nofun
      · split at h
        · rename_i found' hfound
          cases h
          obtain ⟨m, heq, -⟩ := symbolLexeme?_text hfound
          rw [heq]
          exact nofun
        · cases h

/-- A lexeme that begins with no part of a name begins with no part of a word. -/
theorem isWordPart_of_lexeme {c : Char} {found : Lexeme} (h : lexeme c rest = .ok found)
    (hname : isNamePart c = false) : isWordPart c = false := by
  unfold lexeme at h
  split at h
  · rename_i hquote
    have hmark : c = '"' ∨ c = '\'' := by simpa using hquote
    exact (IsQuote.facts hmark).2.1
  · split at h
    · rename_i hstart
      simp only [Bool.or_eq_true, Bool.and_eq_true, decide_eq_true_eq] at hstart
      rcases hstart with hdigit | ⟨rfl, -⟩
      · exact absurd (isNamePart_of_isDigit hdigit) (by simp [hname])
      · decide
    · split at h
      · rename_i hstart
        exact absurd (isNamePart_of_isNameStart hstart) (by simp [hname])
      · split at h
        · rename_i found' hfound
          obtain ⟨m, -, htext⟩ := symbolLexeme?_text hfound
          have hhead : m.text.toList.head?.all (fun d => ! isWordPart d) = true := by
            cases m <;> decide
          obtain ⟨d, others, hd⟩ := List.exists_cons_of_ne_nil (clear_symbol m).1
          rw [hd, List.cons_append] at htext
          obtain rfl : c = d := List.head_eq_of_cons_eq htext
          rw [hd] at hhead
          simpa using hhead
        · cases h

/-- Where a text is cut into pieces, a word of the scan ends where one of the lexer does. -/
theorem isWordPart_of_cut {c : Char} (hcut : Cut l (c :: rest) ps) (hname : isNamePart c = false) :
    isWordPart c = false := by
  cases hblank : isBlank c with
  | true => exact isWordPart_of_isBlank hblank
  | false =>
      by_cases hslash : c = '/'
      · subst hslash
        decide
      · have hnone : skipGap .open l (c :: rest) = .ok (l, c :: rest) :=
          skipGap_none hblank fun h => absurd h hslash
        cases hcut with
        | last hgap =>
            rw [hnone] at hgap
            cases hgap
        | piece hgap hfound hothers =>
            rw [hnone] at hgap
            cases hgap
            exact isWordPart_of_lexeme hfound hname

theorem wordEnds_of_cut {c : Char}
    (hcut : Cut l ((c :: rest).dropWhile isNamePart) ps) : WordEnds (c :: rest) := by
  intro d hd
  obtain ⟨more, hmore⟩ := List.head?_eq_some_iff.mp hd
  rw [hmore] at hcut
  refine isWordPart_of_cut hcut ?_
  have hstop := takeWhile_dropWhile (c :: rest)
  rw [hmore] at hstop
  by_contra hpart
  simp [hpart] at hstop

/-! ## Blocks behind arrows -/

/-- A blank that does not end the line. -/
def isSpace (c : Char) : Bool :=
  isBlank c && c != '\n'

/-- The next piece is an opening brace, and only blanks of the line stand before it. -/
def opensBlockAt : List Piece → Bool
  | p :: _ => p.token.kind = .symbol .leftBrace && p.gap.all isSpace
  | [] => false

/-- What the scan sees behind an arrow is the first character that is no blank of the line. -/
theorem opensBlock_iff (text : List Char) :
    opensBlock text = true ↔ (text.dropWhile isSpace).head? = some '{' := by
  unfold opensBlock
  rw [decide_eq_true_eq]
  induction text with
  | nil => exact Iff.rfl
  | cons c rest ih =>
      by_cases hline : c = '\n'
      · subst hline
        rw [lineOf_newline, List.dropWhile_cons, if_neg (by decide)]
        exact ⟨nofun, nofun⟩
      · cases hblank : isBlank c with
        | false =>
            have hspace : isSpace c = false := by simp [isSpace, hblank]
            rw [lineOf_cons hline (startsReturn_of_not_blank hblank), trimStart,
              List.dropWhile_cons, List.dropWhile_cons, hblank, hspace]
            exact Iff.rfl
        | true =>
            have hspace : isSpace c = true := by simp [isSpace, hblank, hline]
            rw [List.dropWhile_cons, hspace, if_pos rfl, ← ih]
            cases hr : startsReturn (c :: rest) with
            | false =>
                rw [lineOf_cons hline hr, trimStart, List.dropWhile_cons, hblank, if_pos rfl,
                  trimStart]
            | true =>
                unfold startsReturn at hr
                split at hr
                · rename_i heq
                  cases heq
                  rw [lineOf_return, lineOf_newline]
                · cases hr

theorem skipGap_spaces (l : Location) (text : List Char) :
    ∃ l', skipGap .open l text = skipGap .open l' (text.dropWhile isSpace) := by
  induction text generalizing l with
  | nil => exact ⟨l, rfl⟩
  | cons c rest ih =>
      cases hspace : isSpace c with
      | false => exact ⟨l, by rw [List.dropWhile_cons, hspace, if_neg (by decide)]⟩
      | true =>
          have hblank : isBlank c = true := by
            simp only [isSpace, Bool.and_eq_true] at hspace
            exact hspace.1
          obtain ⟨l', hl'⟩ := ih (l.next c)
          exact ⟨l', by rw [skipGap_blank hblank, hl', List.dropWhile_cons, hspace, if_pos rfl]⟩

theorem gapBefore_of_suffix {text rest : List Char} (h : rest <:+ text) :
    gapBefore text rest ++ rest = text := by
  obtain ⟨gap, rfl⟩ := h
  rw [gapBefore_append]

/-- An arrow opens a block in the eyes of the scan if the next piece is a brace on the line. -/
theorem opensBlock_of_cut (hcut : Cut l text ps) : opensBlock text = opensBlockAt ps := by
  rw [Bool.eq_iff_iff, opensBlock_iff]
  obtain ⟨l₁, hspaces⟩ := skipGap_spaces l text
  constructor
  · intro hhead
    obtain ⟨more, hmore⟩ := List.head?_eq_some_iff.mp hhead
    have hgap' : skipGap .open l text = .ok (l₁, '{' :: more) := by
      rw [hspaces, hmore]
      exact skipGap_none (by decide) fun h => absurd h (by decide)
    have htext : text = text.takeWhile isSpace ++ '{' :: more := by
      rw [← hmore, List.takeWhile_append_dropWhile]
    cases hcut with
    | last hgap =>
        rw [hgap'] at hgap
        cases hgap
    | piece hgap hfound hothers =>
        rw [hgap'] at hgap
        cases hgap
        cases hfound
        have hbefore : gapBefore text ('{' :: more) = text.takeWhile isSpace := by
          rw [congrArg (gapBefore · ('{' :: more)) htext]
          exact gapBefore_append _ _
        simp only [opensBlockAt, hbefore, List.all_takeWhile, decide_true, Bool.and_self]
  · intro hopens
    cases hcut with
    | last hgap => cases hopens
    | @piece _ l' _ c rest found others hgap hfound hothers =>
        simp only [opensBlockAt, Bool.and_eq_true, decide_eq_true_eq] at hopens
        have hstart := lexeme_symbol hfound hopens.1
        obtain rfl : c = '{' := List.head_eq_of_cons_eq hstart
        have htext := gapBefore_of_suffix (skipGap_suffix hgap)
        rw [← htext, List.dropWhile_append_of_pos (List.all_eq_true.mp hopens.2)]
        rfl

/-! ## From piece to piece -/

/-- A symbol that begins with the second character of an arrow. -/
def startsGreater : Kind → Bool
  | .symbol m => m.text.toList.head? = some '>'
  | _ => false

/-- The scan can tell the tokens apart, whatever stands between them: there is no word that it
looks for behind a numeral of the line, and the two make no arrow. -/
structure Apart (token next : Token) : Prop where
  word : isFunctionWord next.kind = true → token.kind.isNumeral = true →
    token.loc.line ≠ next.loc.line
  arrow : endsInEqual token.kind = true → startsGreater next.kind = false

/-- What is known of the scan behind a token and before some pieces, on a line that it entered in
some state, does not depend on comments; at the end of a line it settles the kind of the line;
and each piece preserves it. A piece does what its token does, if the scan can tell it from its
neighbours. -/
structure Follows (Right : Nat → LineKind → Prop)
    (Inv : Token → List Piece → Nat → Scan → Scan → Prop) : Prop where
  marks : ∀ {prev ps n before s s'}, Inv prev ps n before s → s'.bare = s.bare →
    Inv prev ps n before s'
  next : ∀ {prev ps n before s}, Inv prev ps n before s → (∀ p ∈ ps.head?, n < p.line) →
    Right n (kindOf before s) ∧ Inv prev ps (n + 1) s.nextLine s.nextLine
  piece : ∀ {prev p ps before s s'}, Inv prev (p :: ps) p.line before s → s'.sawCode = true →
    (Apart prev p.token → (∀ q ∈ ps.head?, Apart p.token q.token) → s'.bare =
      (({ s with sawCode := true } : Scan).token p.token.kind (opensBlockAt ps)).bare) →
    Inv p.token ps p.line before s'

/-- Only behind a numeral of the line may the scan still be inside of a word where another
begins. -/
def WordOver (prev : Token) (l : Location) (text : List Char) (s : Scan) : Prop :=
  s.inside = .word → (prev.kind.isNumeral = true ∧ prev.loc.line = l.line) ∨
    text.takeWhile isNamePart = []

/-- A piece that begins with the second character of an arrow is a symbol. -/
theorem startsGreater_of_cut (hcut : Cut l ('>' :: rest) ps) :
    ∃ q ∈ ps.head?, startsGreater q.token.kind = true := by
  have hnone : skipGap .open l ('>' :: rest) = .ok (l, '>' :: rest) :=
    skipGap_none (by decide) fun h => absurd h (by decide)
  cases hcut with
  | last hgap =>
      rw [hnone] at hgap
      cases hgap
  | @piece _ _ _ c more found others hgap hfound hothers =>
      rw [hnone] at hgap
      cases hgap
      refine ⟨_, rfl, ?_⟩
      have hsymbol : symbolLexeme? ('>' :: rest) = some found := by
        cases hsymbol : symbolLexeme? ('>' :: rest) with
        | none => simp [lexeme, isNameStart, hsymbol] at hfound
        | some symbol => simpa [lexeme, isNameStart, hsymbol] using hfound
      obtain ⟨m, heq, htext⟩ := symbolLexeme?_text hsymbol
      obtain ⟨d, tail, hd⟩ := List.exists_cons_of_ne_nil (clear_symbol m).1
      rw [hd, List.cons_append] at htext
      obtain rfl : '>' = d := List.head_eq_of_cons_eq htext
      rw [heq]
      simp [startsGreater, hd]

/-- A word that the scan looks for begins as a name does. -/
theorem isNameStart_of_functionWord {c : Char} {found : Lexeme} (h : lexeme c rest = .ok found)
    (hword : isFunctionWord found.kind = true) : isNameStart c = true := by
  unfold lexeme at h
  split at h
  · split at h
    · cases h
      cases hword
    · cases h
  · split at h
    · rename_i hstart
      have hline : c ≠ '\n' := by
        rintro rfl
        simp at hstart
      have hnumeral := (numberLexeme_isNumeral hline h).kind
      cases hkind : found.kind <;> simp_all [isFunctionWord, Kind.isNumeral]
    · split at h
      · assumption
      · split at h
        · rename_i found' hfound
          cases h
          obtain ⟨m, heq, -⟩ := symbolLexeme?_text hfound
          rw [heq] at hword
          cases hword
        · cases h

variable {Right : Nat → LineKind → Prop} {Inv : Token → List Piece → Nat → Scan → Scan → Prop}

/-- Two pieces that the scan can tell apart are separate lexemes. -/
theorem separate_of_apart {prev : Token} {s : Scan} {c : Char} {found : Lexeme}
    (hfound : lexeme c rest = .ok found) {after : Location} (hothers : Cut after found.rest ps)
    (hword : s.inside = .word → (c :: rest).takeWhile isNamePart = [] ∨
      (prev.kind.isNumeral = true ∧ prev.loc.line = l.line))
    (hprev : Apart prev ⟨found.kind, l⟩) (hnext : ∀ q ∈ ps.head?, Apart ⟨found.kind, l⟩ q.token)
    (hs : s.Settled) : Separate s found := by
  constructor
  · intro hfunction
    have hstart := isNamePart_of_isNameStart (isNameStart_of_functionWord hfound hfunction)
    refine hs.elim id fun ⟨hinside, _⟩ => ?_
    rcases hword hinside with hnil | ⟨hnumeral, hline⟩
    · simp [hstart] at hnil
    · exact absurd hline (hprev.word hfunction hnumeral)
  · intro hend hhead
    obtain ⟨more, hmore⟩ := List.head?_eq_some_iff.mp hhead
    rw [hmore] at hothers
    obtain ⟨q, hq, hgreater⟩ := startsGreater_of_cut hothers
    have hother := (hnext q hq).arrow hend
    rw [hgreater] at hother
    cases hother

/-- An invariant of the scan settles the kinds of all lines of a text that is cut into pieces. -/
theorem Follows.eachLine (h : Follows Right Inv) {prev : Token} {before s : Scan}
    (hcut : Cut l text ps) (hbreak : ∀ p ∈ ps, '\n' ∉ p.text) (hs : s.Settled)
    (hword : WordOver prev l text s) (hinv : Inv prev ps l.line before s) :
    EachLine Right l.line (kindsAhead before s text) := by
  induction hcut generalizing prev before s with
  | @last l l' text hgap =>
      have ht : Tracked Right l'.line (Inv prev []) :=
        ⟨fun hinv hbare => h.marks hinv hbare, fun _ hinv => h.next hinv nofun⟩
      obtain ⟨before', s', hinv', -, -, hlines⟩ := kindsAhead_skipGap hgap ht hs hinv
      exact hlines ⟨(h.next hinv' nofun).1, trivial⟩
  | @piece l l' text c rest found others hgap hfound hothers ih =>
      have ht : Tracked Right l'.line
          (Inv prev (⟨gapBefore text (c :: rest), ⟨found.kind, l'⟩, found.text⟩ :: others)) :=
        ⟨fun hinv hbare => h.marks hinv hbare,
          fun hn hinv => h.next hinv (by rintro p ⟨⟩; exact hn)⟩
      obtain ⟨before', s', hinv', hs', hword', hlines⟩ := kindsAhead_skipGap hgap ht hs hinv
      refine hlines ?_
      have hline : '\n' ∉ found.text := hbreak _ List.mem_cons_self
      have hends : isNameStart c = true → WordEnds (c :: rest) := by
        intro hname
        rw [lexeme_nameStart hname] at hfound
        cases hfound
        exact wordEnds_of_cut hothers
      obtain ⟨s'', htakes⟩ := takes_lexeme hs' hfound hline (skipGap_stops hgap).2 hends
      have hbefore : s'.inside = .word → (c :: rest).takeWhile isNamePart = [] ∨
          (prev.kind.isNumeral = true ∧ prev.loc.line = l'.line) := by
        intro hinside
        refine (hword' hinside).elim Or.inl ?_
        rintro ⟨hinside', rfl, rfl⟩
        exact (hword hinside').symm
      have hpiece : Inv ⟨found.kind, l'⟩ others l'.line before' s'' := by
        refine h.piece hinv' htakes.sawCode fun hprev hnext => ?_
        rw [← opensBlock_of_cut hothers]
        exact htakes.effect (separate_of_apart hfound hothers hbefore hprev hnext hs')
      rw [htakes.scans before']
      have hafter : (l'.after found.text).line = l'.line := Location.line_after hline l'
      rw [← hafter]
      have hword'' : WordOver ⟨found.kind, l'⟩ (l'.after found.text) found.rest s'' :=
        fun hinside => (htakes.word hinside).imp_left fun hnumeral => ⟨hnumeral, hafter.symm⟩
      rw [← hafter] at hpiece
      exact ih (fun p hp => hbreak p (List.mem_cons_of_mem _ hp)) htakes.settled hword'' hpiece

end StepTrace.Capture
