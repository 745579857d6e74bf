import StepTrace.Proofs.ScannedPieces

/-!
# Lines of code

The scan and the lexer agree on what is code: a line on which a token starts is a line of code,
and a line without any part of a token is blank or a comment (`code_lines`). This holds for
all texts whose text literals stay on their line. A literal may go on over an escaped line
break, and the lexer reads it to its closing mark, but the scan, which starts every line anew,
takes the rest of the literal for code and loses its way; the last text shows it.

* `Occupied`: some piece starts on the line.
* `LineKind.HoldsCode`: the line counts as code.
-/

namespace StepTrace

namespace Syntax

open Text

variable {l l' : Location} {text rest : List Char} {ps : List Piece}

/-! ## The lines of pieces -/

/-- The lines of the pieces do not go back, and they are lines of the text. -/
theorem lines_of_cut (hcut : Cut l text ps) :
    ps.Pairwise (fun p q => p.line ≤ q.line) ∧
      ∀ p ∈ ps, l.line ≤ p.line ∧ p.line ≤ l.line + newlines text := by
  obtain ⟨hpairwise, hplaces⟩ := places_of_cut hcut
  refine ⟨hpairwise.imp Location.Before.line_le, fun p hp => ⟨?_, ?_⟩⟩
  · rcases hplaces p hp with heq | hbefore
    · rw [heq]
      exact Nat.le_refl _
    · exact hbefore.line_le
  · induction hcut with
    | last => cases hp
    | @piece l l' text c rest found others hgap hfound hothers ih =>
        have hgapLine := line_of_skipGap hgap
        rw [← (lexeme_parts hfound).whole, newlines_append] at hgapLine
        rcases List.mem_cons.mp hp with rfl | hp
        · change l'.line ≤ _
          omega
        · have hlast := ih (places_of_cut hothers).1 (places_of_cut hothers).2 hp
          rw [line_after_newlines] at hlast
          omega

/-- The line on which a piece starts is a line of the text. -/
theorem line_le_of_cut (hcut : Cut l text ps) (front : List Char)
    (hl : l.line = newlines front + 1) : ∀ p ∈ ps, p.line ≤ (lines (front ++ text)).length := by
  induction hcut generalizing front with
  | last => exact List.forall_mem_nil _
  | @piece l l' text c rest found others hgap hfound hothers ih =>
      have hc : c ≠ '\n' := by
        rintro rfl
        exact absurd (Capture.skipGap_stops hgap).1 (by decide)
      obtain ⟨gap, rfl, rfl⟩ := exists_gap hgap
      have hstart : (l.after gap).line = newlines (front ++ gap) + 1 := by
        rw [line_after_newlines, newlines_append, hl]
        omega
      rw [← List.append_assoc]
      refine List.forall_mem_cons.mpr ⟨?_, ?_⟩
      · change (l.after gap).line ≤ _
        rw [hstart]
        exact newlines_lt_lines hc (front ++ gap) rest
      · rw [← (lexeme_parts hfound).whole, ← List.append_assoc]
        refine ih _ ?_
        rw [line_after_newlines, newlines_append, hstart]
        omega
end Syntax

namespace Capture

open Text Syntax

variable {Right : Nat → LineKind → Prop}

theorem EachLine.get {kinds : List LineKind} {n i : Nat} {kind : LineKind}
    (h : EachLine Right n kinds) (hi : kinds[i]? = some kind) : Right (n + i) kind := by
  induction kinds generalizing n i with
  | nil => cases hi
  | cons first kinds ih =>
      cases i with
      | zero =>
          cases hi
          exact h.1
      | succ i =>
          have := ih h.2 hi
          rwa [Nat.add_right_comm] at this

/-- The line counts as code. -/
def LineKind.HoldsCode (kind : LineKind) : Prop :=
  kind = .executable ∨ kind = .nonSuspendingBody

theorem holdsCode_kindOf (before s : Scan) : (kindOf before s).HoldsCode ↔ s.sawCode = true := by
  unfold kindOf LineKind.HoldsCode
  cases s.sawCode with
  | true =>
      rw [if_pos rfl]
      split
      · exact ⟨fun _ => rfl, fun _ => Or.inr rfl⟩
      · exact ⟨fun _ => rfl, fun _ => Or.inl rfl⟩
  | false => cases s.sawComment <;> simp

theorem not_holdsCode_iff {kind : LineKind} :
    ¬ kind.HoldsCode ↔ kind = .blank ∨ kind = .comment := by
  cases kind <;> simp [LineKind.HoldsCode]

/-- Where the next piece is behind the line, all are. -/
theorem behind_of_head {ps : List Piece} {n : Nat}
    (hordered : ps.Pairwise fun p q => p.line ≤ q.line) (hnext : ∀ p ∈ ps.head?, n < p.line) :
    ∀ p ∈ ps, n < p.line := by
  cases ps with
  | nil => exact List.forall_mem_nil _
  | cons p ps =>
      have hp : n < p.line := hnext p rfl
      refine List.forall_mem_cons.mpr ⟨hp, fun q hq => ?_⟩
      exact hp.trans_le ((List.pairwise_cons.mp hordered).1 q hq)

/-- Some piece starts on the line. -/
def Occupied (ps : List Piece) (n : Nat) : Prop :=
  ∃ p ∈ ps, p.line = n

/-- The pieces before the scan are in order, and together with what the scan has seen on its line
they tell which lines are occupied from there on. -/
structure CodeSeen (all : List Piece) (_prev : Token) (ps : List Piece) (n : Nat)
    (_before s : Scan) : Prop where
  ordered : ps.Pairwise fun p q => p.line ≤ q.line
  ahead : ∀ p ∈ ps, n ≤ p.line
  occupied : ∀ m, n ≤ m → (Occupied all m ↔ (m = n ∧ s.sawCode = true) ∨ Occupied ps m)

theorem codeSeen_follows (all : List Piece) :
    Follows (fun n kind => kind.HoldsCode ↔ Occupied all n) (CodeSeen all) := by
  constructor
  · intro prev ps n before s s' h hbare
    have hcode : s'.bare.sawCode = s.bare.sawCode := congrArg Scan.sawCode hbare
    change s'.sawCode = s.sawCode at hcode
    exact ⟨h.ordered, h.ahead, by rw [hcode]; exact h.occupied⟩
  · intro prev ps n before s h hnext
    have hbehind := behind_of_head h.ordered hnext
    have hfree : ¬ Occupied ps n := by
      rintro ⟨p, hp, rfl⟩
      exact absurd (hbehind p hp) (Nat.lt_irrefl _)
    refine ⟨?_, h.ordered, hbehind, fun m hm => ?_⟩
    · rw [holdsCode_kindOf, h.occupied n (Nat.le_refl n)]
      simp [hfree]
    · have hne : m ≠ n := by omega
      rw [h.occupied m (by omega)]
      simp [hne, Scan.nextLine]
  · intro prev p ps before s s' h hcode _
    obtain ⟨hfirst, hordered⟩ := List.pairwise_cons.mp h.ordered
    refine ⟨hordered, hfirst, fun m hm => ?_⟩
    have hcons : Occupied (p :: ps) m ↔ p.line = m ∨ Occupied ps m := by
      simp [Occupied]
    rw [h.occupied m hm, hcons, hcode]
    constructor
    · rintro (⟨rfl, -⟩ | rfl | hps)
      · exact Or.inl ⟨rfl, rfl⟩
      · exact Or.inl ⟨rfl, rfl⟩
      · exact Or.inr hps
    · rintro (⟨rfl, -⟩ | hps)
      · exact Or.inr (Or.inl rfl)
      · exact Or.inr (Or.inr hps)

/-- The kinds of the lines that a reader does not see end with one that holds no code. -/
theorem kindsFrom_emptyLine {s : Scan} (hs : s.sawCode = false) (lines : List (List Char)) :
    ∃ kind, kindsFrom s (lines ++ [[]]) = kindsFrom s lines ++ [kind] ∧ ¬ kind.HoldsCode := by
  induction lines generalizing s with
  | nil =>
      refine ⟨kindOf s s, rfl, ?_⟩
      rw [holdsCode_kindOf, hs]
      exact Bool.false_ne_true
  | cons line lines ih =>
      obtain ⟨kind, hkinds, hcode⟩ := ih (s := (s.chars 0 line).nextLine) rfl
      exact ⟨kind, by simp [kindsFrom, hkinds], hcode⟩

/-- The reader's lines are all lines of the text, apart from an empty last one. -/
theorem allLines_eq_lines (text : List Char) :
    allLines text = lines text ∨ allLines text = lines text ++ [[]] := by
  unfold lines allLines
  dsimp only
  cases h : (splitLines text).getLast?.getD [] with
  | nil => exact Or.inr (by simp)
  | cons c rest => exact Or.inl (by simp)

/-- Every line of code of a text has its kind in the line map. -/
theorem lineMap_get {source : String} {i : Nat} {kind : LineKind}
    (h : (kindsAhead {} {} source.toList)[i]? = some kind) (hcode : kind.HoldsCode) :
    (lineMap source)[i]? = some kind := by
  rw [← kindsFrom_allLines] at h
  rcases allLines_eq_lines source.toList with heq | heq
  · rwa [heq] at h
  · obtain ⟨last, hkinds, hlast⟩ := kindsFrom_emptyLine (s := {}) rfl (lines source.toList)
    rw [heq, hkinds, List.getElem?_append] at h
    split at h
    · exact h
    · rename_i hlength
      cases hi : i - (kindsFrom {} (lines source.toList)).length with
      | zero =>
          rw [hi] at h
          cases h
          exact absurd hcode hlast
      | succ j =>
          rw [hi] at h
          cases h

theorem length_kindsAhead (before s : Scan) (text : List Char) :
    (kindsAhead before s text).length = newlines text + 1 := by
  have hlines := length_allLines text
  rw [allLines_eq, List.length_cons] at hlines
  rw [kindsAhead, List.length_cons, length_kindsFrom, hlines]

/-- No text literal goes on over the end of its line. -/
def LiteralsStayOnLine (source : String) : Prop :=
  ∀ p ∈ pieces source, '\n' ∉ p.text

instance (source : String) : Decidable (LiteralsStayOnLine source) :=
  inferInstanceAs (Decidable (∀ p ∈ pieces source, '\n' ∉ p.text))

/-- Where no text literal goes on over the end of its line, a line on which a token starts counts
as code, and a line without any part of a token is blank or a comment. -/
theorem code_lines {source : String} {tokens : List Token} (h : tokenize source = .ok tokens)
    (hbreak : LiteralsStayOnLine source) :
    (∀ token ∈ tokens, token.kind ≠ .endOfInput →
      (lineMap source)[token.loc.line - 1]? = some .executable ∨
        (lineMap source)[token.loc.line - 1]? = some .nonSuspendingBody) ∧
    ∀ i kind, (lineMap source)[i]? = some kind →
      (∀ p ∈ pieces source, ¬ (p.line ≤ i + 1 ∧ i + 1 ≤ p.lastLine)) →
      kind = .blank ∨ kind = .comment := by
  obtain ⟨hcut, -⟩ := cut_pieces h
  obtain ⟨hordered, hlines⟩ := lines_of_cut hcut
  have hseen : CodeSeen (pieces source) ⟨.endOfInput, ⟨1, 1⟩⟩ (pieces source) 1 {} {} :=
    ⟨hordered, fun p hp => (hlines p hp).1, fun m _ => by simp⟩
  have hword : WordOver ⟨.endOfInput, ⟨1, 1⟩⟩ ⟨1, 1⟩ source.toList {} := by
    intro hinside
    cases hinside
  have hkinds := (codeSeen_follows (pieces source)).eachLine hcut hbreak (Or.inl rfl) hword hseen
  constructor
  · intro token htoken hend
    obtain ⟨p, hp, rfl⟩ := exists_piece h htoken hend
    obtain ⟨hfirst, hlast⟩ : 1 ≤ p.token.loc.line ∧
        p.token.loc.line ≤ 1 + newlines source.toList := hlines p hp
    have hpos : p.token.loc.line - 1 < (kindsAhead {} {} source.toList).length := by
      rw [length_kindsAhead]
      omega
    have hget := List.getElem?_eq_getElem hpos
    have hoccupied : Occupied (pieces source) (1 + (p.token.loc.line - 1)) :=
      ⟨p, hp, (Nat.add_sub_cancel' hfirst).symm⟩
    have hcode := (hkinds.get hget).mpr hoccupied
    have hmap := lineMap_get hget hcode
    rcases hcode with hkind | hkind
    · exact Or.inl (by rw [hmap, hkind])
    · exact Or.inr (by rw [hmap, hkind])
  · intro i kind hi hfree
    obtain ⟨more, hmore⟩ := lineMap_prefix source
    have hi' : (kindsAhead {} {} source.toList)[i]? = some kind := by
      rw [← hmore, List.getElem?_append_left (List.getElem?_eq_some_iff.mp hi).1]
      exact hi
    rw [← not_holdsCode_iff, hkinds.get hi']
    rintro ⟨p, hp, hline⟩
    have hlast : p.lastLine = p.line := by
      have hcount : newlines p.text = 0 := List.count_eq_zero.mpr (hbreak p hp)
      rw [Piece.lastLine, hcount, Nat.add_zero]
    refine hfree p hp ?_
    change p.line = 1 + i at hline
    omega

/-- A comment, a text with the mark of a comment, and a comment over two lines. -/
def markedText : String :=
  "// a\n\"/*\";\n/*\n*/ true;\n"

set_option maxRecDepth 4096 in
theorem code_lines_markedText :
    LiteralsStayOnLine markedText ∧
      ((lineMap markedText)[1]? = some .executable ∨
        (lineMap markedText)[1]? = some .nonSuspendingBody) ∧
      ∃ kind, (lineMap markedText)[2]? = some kind ∧ (kind = .blank ∨ kind = .comment) := by
  have htokens : tokenize markedText = .ok [⟨.string "/*", ⟨2, 1⟩⟩, ⟨.symbol .semicolon, ⟨2, 5⟩⟩,
      ⟨.keyword .trueKw, ⟨4, 4⟩⟩, ⟨.symbol .semicolon, ⟨4, 8⟩⟩, ⟨.endOfInput, ⟨5, 1⟩⟩] := by
    rfl
  have hstay : LiteralsStayOnLine markedText := by decide +kernel
  obtain ⟨htoken, hfree⟩ := code_lines htokens hstay
  refine ⟨hstay, htoken _ List.mem_cons_self nofun, _, rfl, hfree 2 _ rfl ?_⟩
  decide +kernel

/-- A text literal goes on over an escaped line break, and the rest of it looks like the start
of a comment. -/
def brokenLiteral : String :=
  "let s = \"a\\\n/*\";\nlet x = s;\n"

set_option maxRecDepth 4096 in
/-- In `brokenLiteral` the scan takes the line of the last statement for a comment. -/
theorem not_code_brokenLiteral :
    ∃ tokens, tokenize brokenLiteral = .ok tokens ∧
      ¬ ∀ token ∈ tokens, token.kind ≠ .endOfInput →
        (lineMap brokenLiteral)[token.loc.line - 1]? = some .executable ∨
          (lineMap brokenLiteral)[token.loc.line - 1]? = some .nonSuspendingBody := by
  have htokens : tokenize brokenLiteral = .ok [⟨.keyword .letKw, ⟨1, 1⟩⟩, ⟨.name "s", ⟨1, 5⟩⟩,
      ⟨.symbol .assign, ⟨1, 7⟩⟩, ⟨.string "a\n/*", ⟨1, 9⟩⟩, ⟨.symbol .semicolon, ⟨2, 4⟩⟩,
      ⟨.keyword .letKw, ⟨3, 1⟩⟩, ⟨.name "x", ⟨3, 5⟩⟩, ⟨.symbol .assign, ⟨3, 7⟩⟩,
      ⟨.name "s", ⟨3, 9⟩⟩, ⟨.symbol .semicolon, ⟨3, 10⟩⟩, ⟨.endOfInput, ⟨4, 1⟩⟩] := by
    rfl
  refine ⟨_, htokens, fun hcode => ?_⟩
  have hkind : (lineMap brokenLiteral)[2]? = some .comment := by rfl
  have hlast := hcode ⟨.symbol .semicolon, ⟨3, 10⟩⟩ (by decide) nofun
  rcases hlast with hlast | hlast <;> cases hkind.symm.trans hlast

end Capture

end StepTrace
