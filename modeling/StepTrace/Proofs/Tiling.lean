import StepTrace.Proofs.LoneLexemes

/-!
# Tokens tile their text

A text with tokens is gaps and lexemes in turn, without a character between them or in two of
them. What is skipped is blanks and comments (`exists_isGap`), each lexeme alone is read as its
token, and the place of a token is counted from the text before it (`tokenize_tiles`).

* `IsGap`: a text of blanks and comments.
* `placeBehind`: the place behind a text, counted in it.
* `Tiles`: a text is cut into the pieces and a last gap.
-/

namespace StepTrace.Syntax

open Capture Text

/-! ## Gaps -/

/-- A text of blanks and comments. A comment that begins with two slashes ends with its line; it
may end with the text only where nothing follows. A comment that begins with a slash and a star
ends with the first star and slash behind these. -/
inductive IsGap (final : Bool) : List Char → Prop
  | nil : IsGap final []
  | blank {c : Char} {rest : List Char} (hc : isBlank c = true) (hrest : IsGap final rest) :
    IsGap final (c :: rest)
  | line {comment rest : List Char} (hcomment : '\n' ∉ comment) (hrest : IsGap final rest) :
    IsGap final ('/' :: '/' :: (comment ++ '\n' :: rest))
  | block {comment rest : List Char} (hcomment : ¬ ['*', '/'] <:+: comment ++ ['*'])
    (hrest : IsGap final rest) : IsGap final ('/' :: '*' :: (comment ++ '*' :: '/' :: rest))
  | lastLine {comment : List Char} (hfinal : final = true) (hcomment : '\n' ∉ comment) :
    IsGap final ('/' :: '/' :: comment)

/-- What is left of a gap where its skipping stands. -/
def IsGapFrom (final : Bool) (mode : GapMode) (gap : List Char) : Prop :=
  match mode with
  | .open => IsGap final gap
  | .line => (∃ comment rest, gap = comment ++ '\n' :: rest ∧ '\n' ∉ comment ∧ IsGap final rest) ∨
      (final = true ∧ '\n' ∉ gap)
  | .block _ => ∃ comment rest, gap = comment ++ '*' :: '/' :: rest ∧
      ¬ ['*', '/'] <:+: comment ++ ['*'] ∧ IsGap final rest

variable {final : Bool} {c : Char} {gap : List Char}

theorem IsGapFrom.line_open (h : IsGapFrom final .line gap) :
    IsGap final ('/' :: '/' :: gap) := by
  rcases h with ⟨comment, rest, rfl, hcomment, hrest⟩ | ⟨hfinal, hgap⟩
  · exact .line hcomment hrest
  · exact .lastLine hfinal hgap

theorem IsGapFrom.block_open {start : Location} (h : IsGapFrom final (.block start) gap) :
    IsGap final ('/' :: '*' :: gap) := by
  obtain ⟨comment, rest, rfl, hcomment, hrest⟩ := h
  exact .block hcomment hrest

theorem IsGapFrom.line_cons (h : IsGapFrom final .line gap) (hc : c ≠ '\n') :
    IsGapFrom final .line (c :: gap) := by
  rcases h with ⟨comment, rest, rfl, hcomment, hrest⟩ | ⟨hfinal, hgap⟩
  · refine Or.inl ⟨c :: comment, rest, rfl, ?_, hrest⟩
    exact List.not_mem_cons_of_ne_of_not_mem hc.symm hcomment
  · exact Or.inr ⟨hfinal, List.not_mem_cons_of_ne_of_not_mem hc.symm hgap⟩

/-- A character of a comment that does not close it together with the next one. -/
theorem IsGapFrom.block_cons {start : Location} (h : IsGapFrom final (.block start) gap)
    (hclose : c = '*' → gap.head? ≠ some '/') : IsGapFrom final (.block start) (c :: gap) := by
  obtain ⟨comment, rest, rfl, hcomment, hrest⟩ := h
  refine ⟨c :: comment, rest, rfl, ?_, hrest⟩
  rw [List.cons_append, List.infix_cons_iff]
  rintro (hfront | hinfix)
  · obtain ⟨rfl, hslash⟩ := List.cons_prefix_cons.mp hfront
    refine hclose rfl ?_
    cases comment with
    | nil => simp at hslash
    | cons d comment =>
        obtain rfl := (List.cons_prefix_cons.mp hslash).1
        rfl
  · exact hcomment hinfix

/-- What is skipped is a gap, and the place is the one behind it. -/
theorem exists_isGap {mode : GapMode} {l l' : Location} {text rest : List Char}
    (h : skipGap mode l text = .ok (l', rest)) :
    ∃ gap, gap ++ rest = text ∧ l.after gap = l' ∧ IsGapFrom rest.isEmpty mode gap := by
  fun_induction skipGap mode l text with
  | case1 l text ih =>
      obtain ⟨gap, rfl, hafter, hgap⟩ := ih h
      exact ⟨'/' :: '/' :: gap, rfl, hafter, hgap.line_open⟩
  | case2 l text ih =>
      obtain ⟨gap, rfl, hafter, hgap⟩ := ih h
      exact ⟨'/' :: '*' :: gap, rfl, hafter, hgap.block_open⟩
  | case3 l c text _ _ hblank ih =>
      obtain ⟨gap, rfl, hafter, hgap⟩ := ih h
      exact ⟨c :: gap, rfl, hafter, .blank hblank hgap⟩
  | case4 l c text _ _ _ =>
      cases h
      exact ⟨[], rfl, rfl, .nil⟩
  | case5 l text ih =>
      obtain ⟨gap, rfl, hafter, hgap⟩ := ih h
      exact ⟨'\n' :: gap, rfl, hafter, Or.inl ⟨[], gap, rfl, List.not_mem_nil, hgap⟩⟩
  | case6 l c text hc ih =>
      obtain ⟨gap, rfl, hafter, hgap⟩ := ih h
      exact ⟨c :: gap, rfl, hafter, hgap.line_cons hc⟩
  | case7 start l text ih =>
      obtain ⟨gap, rfl, hafter, hgap⟩ := ih h
      exact ⟨'*' :: '/' :: gap, rfl, hafter, [], gap, rfl, by decide, hgap⟩
  | case8 start l c text hclose ih =>
      obtain ⟨gap, rfl, hafter, hgap⟩ := ih h
      refine ⟨c :: gap, rfl, hafter, hgap.block_cons ?_⟩
      rintro rfl hhead
      obtain ⟨more, rfl⟩ := List.head?_eq_some_iff.mp hhead
      exact hclose _ rfl rfl
  | case9 l =>
      cases h
      exact ⟨[], rfl, rfl, .nil⟩
  | case10 l =>
      cases h
      exact ⟨[], rfl, rfl, Or.inr ⟨rfl, List.not_mem_nil⟩⟩
  | case11 start l => cases h

/-! ## Places -/

/-- The place behind a text: one line more for each newline, and one column more for each
character behind the last newline. -/
def placeBehind (text : List Char) : Location :=
  ⟨1 + text.count '\n', 1 + (text.reverse.takeWhile (· ≠ '\n')).length⟩

theorem placeBehind_concat (text : List Char) (c : Char) :
    placeBehind (text ++ [c]) = (placeBehind text).next c := by
  unfold placeBehind Location.next
  by_cases hc : c = '\n'
  · simp [hc, Nat.add_assoc]
  · simp [hc, Nat.add_comm]

/-- The place that the lexer counts up is the one behind the text. -/
theorem after_eq_placeBehind (text : List Char) :
    Location.after ⟨1, 1⟩ text = placeBehind text := by
  induction text using List.reverseRecOn with
  | nil => rfl
  | append_singleton text c ih =>
      rw [Location.after_append, ih, placeBehind_concat]
      rfl

/-! ## Tilings -/

/-- The characters that the piece takes, with those of the gap before it. -/
def Piece.chars (p : Piece) : List Char :=
  p.gap ++ p.text

/-- The text consists of the pieces and a last gap: what stands before a piece is a gap, what it
takes is alone read as its token, and its token stands where the text before it ends. -/
structure Tiles (text : List Char) (ps : List Piece) (last : List Char) : Prop where
  whole : text = ps.flatMap Piece.chars ++ last
  gap : ∀ p ∈ ps, IsGap false p.gap
  last : IsGap true last
  alone : ∀ p ∈ ps, p.token.kind ≠ .endOfInput ∧ ∃ l, tokenize (String.ofList p.text) =
    .ok [⟨p.token.kind, ⟨1, 1⟩⟩, ⟨.endOfInput, l⟩]
  place : ∀ before p behind, ps = before ++ p :: behind →
    p.token.loc = placeBehind (before.flatMap Piece.chars ++ p.gap)

variable {l : Location} {text : List Char} {ps : List Piece}

/-- Of a text that is cut into pieces, nothing stands outside of pieces and gaps. -/
theorem exists_last_of_cut (hcut : Cut l text ps) : ∃ last, IsGap true last ∧
    text = ps.flatMap Piece.chars ++ last ∧ ∀ before p behind, ps = before ++ p :: behind →
      p.token.loc = l.after (before.flatMap Piece.chars ++ p.gap) := by
  induction hcut with
  | @last l l' text hgap =>
      obtain ⟨gap, rfl, -, hlast⟩ := exists_isGap hgap
      exact ⟨gap, hlast, by simp, by simp⟩
  | @piece l l' text c rest found others hgap hfound hothers ih =>
      obtain ⟨gap, rfl, hafter, -⟩ := exists_isGap hgap
      obtain ⟨last, hlast, hwhole, hplace⟩ := ih
      have htext : found.text ++ found.rest = c :: rest := (lexeme_parts hfound).whole
      rw [gapBefore_append]
      refine ⟨last, hlast, ?_, ?_⟩
      · rw [← htext, hwhole]
        simp [Piece.chars]
      · intro before p behind hsplit
        cases before with
        | nil =>
            obtain rfl := (List.cons.inj hsplit).1
            exact hafter.symm
        | cons q before =>
            obtain ⟨rfl, hothers'⟩ := List.cons.inj hsplit
            rw [hplace before p behind hothers', ← hafter, ← Location.after_append,
              ← Location.after_append]
            simp [Piece.chars]

theorem piece_of_cut (hcut : Cut l text ps) : ∀ p ∈ ps, IsGap false p.gap ∧
    p.token.kind ≠ .endOfInput ∧ ∃ l, tokenize (String.ofList p.text) =
      .ok [⟨p.token.kind, ⟨1, 1⟩⟩, ⟨.endOfInput, l⟩] := by
  induction hcut with
  | last => exact List.forall_mem_nil _
  | @piece l l' text c rest found others hgap hfound hothers ih =>
      refine List.forall_mem_cons.mpr ⟨⟨?_, lexeme_ne_endOfInput hfound, _,
        tokenize_alone hgap hfound⟩, ih⟩
      obtain ⟨gap, rfl, -, hisGap⟩ := exists_isGap hgap
      rw [gapBefore_append]
      exact hisGap

/-- The last token is the end of input, behind the whole text. -/
theorem getLast?_tokensFrom {left : Nat} {tokens : List Token}
    (h : tokensFrom left l text = .ok tokens) (hleft : text.length < left) :
    tokens.getLast? = some ⟨.endOfInput, l.after text⟩ := by
  induction left generalizing l text tokens with
  | zero => omega
  | succ left ih =>
      obtain ⟨l', rest, hgap, hrest⟩ := tokensFrom_succ h
      obtain ⟨gap, rfl, rfl⟩ := exists_gap hgap
      rcases hrest with ⟨rfl, rfl⟩ | ⟨c, more, found, others, rfl, hfound, hothers, rfl⟩
      · rw [List.append_nil]
        rfl
      · have hwhole : found.text ++ found.rest = c :: more := (lexeme_parts hfound).whole
        have hshort := length_rest_lt hfound
        rw [List.length_append] at hleft
        have hlast := ih hothers (by omega)
        rw [Location.after_append, ← hwhole, Location.after_append, ← hlast]
        cases others with
        | nil => cases hlast
        | cons token others => exact List.getLast?_cons_cons

theorem placeBehind_before (text : List Char) {behind : List Char} (hbehind : behind ≠ []) :
    (placeBehind text).Before (placeBehind (text ++ behind)) := by
  rw [← after_eq_placeBehind, ← after_eq_placeBehind, Location.after_append]
  exact (Location.eq_or_before_after _ behind).resolve_left fun hnil => hbehind hnil.1

/-- A piece stands before the end of the text. -/
theorem Tiles.before_end {last : List Char} {p : Piece} (h : Tiles text ps last) (hp : p ∈ ps) :
    p.token.loc.Before (placeBehind text) := by
  obtain ⟨hkind, l, halone⟩ := h.alone p hp
  have hne : p.text ≠ [] := by
    intro hnil
    rw [hnil] at halone
    have hend : [(⟨.endOfInput, ⟨1, 1⟩⟩ : Token)] = [⟨p.token.kind, ⟨1, 1⟩⟩, ⟨.endOfInput, l⟩] :=
      Except.ok.inj halone
    cases congrArg List.length hend
  obtain ⟨before, behind, rfl⟩ := List.append_of_mem hp
  have hwhole : text = (before.flatMap Piece.chars ++ p.gap) ++
      (p.text ++ (behind.flatMap Piece.chars ++ last)) := by
    rw [h.whole]
    simp [Piece.chars]
  rw [h.place before p behind rfl, hwhole]
  exact placeBehind_before _ (List.append_ne_nil_of_left_ne_nil hne _)

/-- **The tokens of a text tile it.** The text is gaps and lexemes in turn, each lexeme alone is
read as its token, places are counted from the text before, and they increase up to that of the
only end of input, which stands behind the text. -/
theorem tokenize_tiles {source : String} {tokens : List Token} (h : tokenize source = .ok tokens) :
    ∃ ps last, Tiles source.toList ps last ∧
      tokens = ps.map Piece.token ++ [⟨.endOfInput, placeBehind source.toList⟩] ∧
      tokens.Pairwise fun (token next : Token) => token.loc.Before next.loc := by
  obtain ⟨hcut, l, htokens⟩ := cut_pieces h
  obtain ⟨last, hlast, hwhole, hplace⟩ := exists_last_of_cut hcut
  have htiles : Tiles source.toList (pieces source) last := by
    refine ⟨hwhole, fun p hp => (piece_of_cut hcut p hp).1, hlast,
      fun p hp => (piece_of_cut hcut p hp).2, fun before p behind hsplit => ?_⟩
    rw [hplace before p behind hsplit, after_eq_placeBehind]
  have hend : (⟨.endOfInput, l⟩ : Token) = ⟨.endOfInput, placeBehind source.toList⟩ := by
    have hlast' := getLast?_tokensFrom h (Nat.lt_succ_self _)
    rw [htokens, List.getLast?_concat, after_eq_placeBehind] at hlast'
    exact Option.some.inj hlast'
  rw [hend] at htokens
  refine ⟨pieces source, last, htiles, htokens, ?_⟩
  rw [htokens, List.pairwise_append, List.pairwise_map]
  refine ⟨(places_of_cut hcut).1, List.pairwise_singleton _ _, ?_⟩
  intro token htoken next hnext
  obtain ⟨p, hp, rfl⟩ := List.mem_map.mp htoken
  rw [List.mem_singleton.mp hnext]
  exact htiles.before_end hp

theorem tokenize_tiles_lines :
    tokenize "x /* y */ // z\n== w" = .ok [⟨.name "x", ⟨1, 1⟩⟩, ⟨.symbol .equal, ⟨2, 1⟩⟩,
      ⟨.name "w", ⟨2, 4⟩⟩, ⟨.endOfInput, ⟨2, 5⟩⟩] ∧
    ∃ ps last, Tiles "x /* y */ // z\n== w".toList ps last ∧
      [⟨.name "x", ⟨1, 1⟩⟩, ⟨.symbol .equal, ⟨2, 1⟩⟩, ⟨.name "w", ⟨2, 4⟩⟩,
        ⟨.endOfInput, ⟨2, 5⟩⟩] =
        ps.map Piece.token ++ [⟨.endOfInput, placeBehind "x /* y */ // z\n== w".toList⟩] ∧
      [⟨.name "x", ⟨1, 1⟩⟩, ⟨.symbol .equal, ⟨2, 1⟩⟩, ⟨.name "w", ⟨2, 4⟩⟩,
        ⟨.endOfInput, ⟨2, 5⟩⟩].Pairwise fun (token next : Token) => token.loc.Before next.loc := by
  have htokens : tokenize "x /* y */ // z\n== w" = .ok [⟨.name "x", ⟨1, 1⟩⟩,
      ⟨.symbol .equal, ⟨2, 1⟩⟩, ⟨.name "w", ⟨2, 4⟩⟩, ⟨.endOfInput, ⟨2, 5⟩⟩] := by
    rfl
  exact ⟨htokens, tokenize_tiles htokens⟩

end StepTrace.Syntax
