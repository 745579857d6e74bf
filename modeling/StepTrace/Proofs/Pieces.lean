import StepTrace.Proofs.Words
import StepTrace.Text.Lines

/-!
# The pieces of a text

The tokens of a text do not say how long they are or what stands between them. Its pieces do:
a piece is a token with its characters and with the gap before it, and the pieces of a text
and the gap behind the last one are the whole text. Where the text has tokens, they are those
of the pieces (`cut_pieces`).

* `pieces`: the pieces of a program text.
* `Cut`: the text that starts at a place is cut into the pieces.
* `Location.Before`: the order of places, in which pieces stand (`places_of_cut`).
-/

namespace StepTrace.Syntax

open Text

/-- A token with its characters and the gap before it. -/
structure Piece where
  gap : List Char
  token : Token
  text : List Char

/-- The line on which the piece starts. -/
def Piece.line (p : Piece) : Nat :=
  p.token.loc.line

/-- The line on which the last character of the piece stands; only a text goes on beyond the
line on which it starts. -/
def Piece.lastLine (p : Piece) : Nat :=
  p.line + newlines p.text

/-- What stands before the rest of a text. -/
def gapBefore (text rest : List Char) : List Char :=
  text.take (text.length - rest.length)

/-- The pieces of the text that starts at the place, up to the first one that cannot be read. -/
def piecesFrom : Nat → Location → List Char → List Piece
  | 0, _, _ => []
  | left + 1, l, text =>
    match skipGap .open l text with
    | .ok (l', c :: rest) =>
      match lexeme c rest with
      | .ok found =>
        ⟨gapBefore text (c :: rest), ⟨found.kind, l'⟩, found.text⟩ ::
          piecesFrom left (l'.after found.text) found.rest
      | .error _ => []
    | _ => []

/-- The pieces of a text. -/
def pieces (source : String) : List Piece :=
  piecesFrom (source.toList.length + 1) ⟨1, 1⟩ source.toList

/-- The text that starts at the place is cut into the pieces, with a gap behind the last. -/
inductive Cut : Location → List Char → List Piece → Prop
  | last {l l' : Location} {text : List Char} (hgap : skipGap .open l text = .ok (l', [])) :
    Cut l text []
  | piece {l l' : Location} {text : List Char} {c : Char} {rest : List Char} {found : Lexeme}
      {others : List Piece} (hgap : skipGap .open l text = .ok (l', c :: rest))
      (hfound : lexeme c rest = .ok found)
      (hothers : Cut (l'.after found.text) found.rest others) :
    Cut l text (⟨gapBefore text (c :: rest), ⟨found.kind, l'⟩, found.text⟩ :: others)

theorem gapBefore_append (gap rest : List Char) : gapBefore (gap ++ rest) rest = gap := by
  simp [gapBefore]

/-- A lexeme is not empty, so what follows it is shorter. -/
theorem length_rest_lt {c : Char} {rest : List Char} {found : Lexeme}
    (h : lexeme c rest = .ok found) : found.rest.length < (c :: rest).length := by
  have hparts := lexeme_parts h
  have hpos : 0 < found.text.length := List.length_pos_iff.mpr hparts.nonempty
  rw [← hparts.whole, List.length_append]
  omega

/-- Where there are tokens, the text is cut into the pieces of these tokens. -/
theorem cut_of_tokensFrom {left : Nat} {l : Location} {text : List Char} {tokens : List Token}
    (h : tokensFrom left l text = .ok tokens) (hleft : text.length < left) :
    Cut l text (piecesFrom left l text) ∧
      ∃ l', tokens = (piecesFrom left l text).map Piece.token ++ [⟨.endOfInput, l'⟩] := by
  induction left generalizing l text tokens with
  | zero => omega
  | succ left ih =>
      obtain ⟨l', rest, hgap, ⟨rfl, rfl⟩ | ⟨c, more, found, others, rfl, hfound, hothers, rfl⟩⟩ :=
        tokensFrom_succ h
      · rw [piecesFrom, hgap]
        exact ⟨.last hgap, l', rfl⟩
      · have hgap_le : (c :: more).length ≤ text.length := (skipGap_suffix hgap).length_le
        have hshort := length_rest_lt hfound
        obtain ⟨hcut, lend, rfl⟩ := ih hothers (by omega)
        rw [piecesFrom, hgap]
        simp only [hfound]
        exact ⟨.piece hgap hfound hcut, lend, rfl⟩

/-- A text with tokens is cut into its pieces, and its tokens are those of the pieces and the
end of input. -/
theorem cut_pieces {source : String} {tokens : List Token} (h : tokenize source = .ok tokens) :
    Cut ⟨1, 1⟩ source.toList (pieces source) ∧
      ∃ l, tokens = (pieces source).map Piece.token ++ [⟨.endOfInput, l⟩] :=
  cut_of_tokensFrom h (Nat.lt_succ_self _)

/-- Every token but the end of input is that of a piece. -/
theorem exists_piece {source : String} {tokens : List Token} (h : tokenize source = .ok tokens)
    {token : Token} (htoken : token ∈ tokens) (hend : token.kind ≠ .endOfInput) :
    ∃ p ∈ pieces source, p.token = token := by
  obtain ⟨-, l, rfl⟩ := cut_pieces h
  rcases List.mem_append.mp htoken with hmem | hmem
  · exact List.mem_map.mp hmem
  · cases List.mem_singleton.mp hmem
    exact absurd rfl hend

/-! ## Places -/

variable {l l' l'' : Location} {text rest : List Char} {ps : List Piece}

/-- The place stands before the other one. -/
def Location.Before (l l' : Location) : Prop :=
  l.line < l'.line ∨ l.line = l'.line ∧ l.column < l'.column

theorem Location.Before.trans (h : l.Before l') (h' : l'.Before l'') : l.Before l'' := by
  unfold Location.Before at *
  omega

theorem Location.Before.ne (h : l.Before l') : l ≠ l' := by
  rintro rfl
  unfold Location.Before at h
  omega

theorem Location.Before.line_le (h : l.Before l') : l.line ≤ l'.line := by
  unfold Location.Before at h
  omega

theorem Location.before_next (l : Location) (c : Char) : l.Before (l.next c) := by
  unfold Location.Before Location.next
  split
  · exact Or.inl (Nat.lt_succ_self _)
  · exact Or.inr ⟨rfl, Nat.lt_succ_self _⟩

theorem Location.eq_or_before_after (l : Location) (text : List Char) :
    (text = [] ∧ l.after text = l) ∨ l.Before (l.after text) := by
  induction text generalizing l with
  | nil => exact Or.inl ⟨rfl, rfl⟩
  | cons c text ih =>
      have hnext := l.before_next c
      rcases ih (l.next c) with ⟨rfl, -⟩ | hafter
      · exact Or.inr hnext
      · exact Or.inr (hnext.trans hafter)

theorem line_next_newlines (l : Location) (c : Char) (text : List Char) :
    (l.next c).line + newlines text = l.line + newlines (c :: text) := by
  unfold Location.next newlines
  by_cases hc : c = '\n'
  · simp [hc, Nat.add_left_comm, Nat.add_comm]
  · simp [hc]

theorem line_after_newlines (l : Location) (text : List Char) :
    (l.after text).line = l.line + newlines text := by
  induction text generalizing l with
  | nil => rfl
  | cons c text ih => exact (ih (l.next c)).trans (line_next_newlines l c text)

/-- What is skipped stands in front of the rest, and the rest starts behind it. -/
theorem exists_gap {mode : GapMode} (h : skipGap mode l text = .ok (l', rest)) :
    ∃ gap, gap ++ rest = text ∧ l.after gap = l' := by
  have hcons {l : Location} {text : List Char} (c : Char)
      (ih : ∃ gap, gap ++ rest = text ∧ (l.next c).after gap = l') :
      ∃ gap, gap ++ rest = c :: text ∧ l.after gap = l' := by
    obtain ⟨gap, rfl, hafter⟩ := ih
    exact ⟨c :: gap, rfl, hafter⟩
  fun_induction skipGap mode l text with
  | case1 l text ih => exact hcons _ (hcons _ (ih h))
  | case2 l text ih => exact hcons _ (hcons _ (ih h))
  | case3 l c text _ _ _ ih => exact hcons _ (ih h)
  | case4 l c text _ _ _ =>
      cases h
      exact ⟨[], rfl, rfl⟩
  | case5 l text ih => exact hcons _ (ih h)
  | case6 l c text _ ih => exact hcons _ (ih h)
  | case7 start l text ih => exact hcons _ (hcons _ (ih h))
  | case8 start l c text _ ih => exact hcons _ (ih h)
  | case9 l =>
      cases h
      exact ⟨[], rfl, rfl⟩
  | case10 l =>
      cases h
      exact ⟨[], rfl, rfl⟩
  | case11 start l => cases h

/-- A gap does not go back. -/
theorem eq_or_before_of_skipGap {mode : GapMode} (h : skipGap mode l text = .ok (l', rest)) :
    l = l' ∨ l.Before l' := by
  obtain ⟨gap, -, rfl⟩ := exists_gap h
  exact (l.eq_or_before_after gap).imp_left fun hnil => hnil.2.symm

theorem line_le_of_skipGap {mode : GapMode} (h : skipGap mode l text = .ok (l', rest)) :
    l.line ≤ l'.line := by
  rcases eq_or_before_of_skipGap h with rfl | hbefore
  · exact Nat.le_refl _
  · exact hbefore.line_le

/-- A gap counts the newlines that it skips. -/
theorem line_of_skipGap {mode : GapMode} (h : skipGap mode l text = .ok (l', rest)) :
    l'.line + newlines rest = l.line + newlines text := by
  obtain ⟨gap, rfl, rfl⟩ := exists_gap h
  rw [line_after_newlines, newlines_append, Nat.add_assoc]

/-- The pieces stand behind each other. -/
theorem places_of_cut (hcut : Cut l text ps) :
    ps.Pairwise (fun p q => p.token.loc.Before q.token.loc) ∧
      ∀ p ∈ ps, l = p.token.loc ∨ l.Before p.token.loc := by
  induction hcut with
  | last => exact ⟨List.Pairwise.nil, List.forall_mem_nil _⟩
  | @piece l l' text c rest found others hgap hfound hothers ih =>
      obtain ⟨hpairwise, hplaces⟩ := ih
      have hstart := eq_or_before_of_skipGap hgap
      have hbehind : ∀ p ∈ others, l'.Before p.token.loc := by
        intro p hp
        have hlexeme := (l'.eq_or_before_after found.text).resolve_left fun hnil =>
          (lexeme_parts hfound).nonempty hnil.1
        rcases hplaces p hp with heq | hbefore
        · rwa [← heq]
        · exact hlexeme.trans hbefore
      refine ⟨List.pairwise_cons.mpr ⟨hbehind, hpairwise⟩,
        List.forall_mem_cons.mpr ⟨hstart, fun p hp => Or.inr ?_⟩⟩
      rcases hstart with rfl | hbefore
      · exact hbehind p hp
      · exact hbefore.trans (hbehind p hp)

end StepTrace.Syntax
