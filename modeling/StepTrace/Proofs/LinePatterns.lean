import StepTrace.Proofs.GenericTypes

/-!
# Patterns for whole lines

A pattern for whole lines looks at the places in front of a line and behind it, and at no other
place. Between them its parts describe a text whatever stands around it (`occurs_wholeLine_iff`).
If that text is never empty and has no newline, a text is rewritten line by line
(`LinePattern.replaceAll_joinLines`): a line that the parts spell is replaced, and the others stay.
-/

namespace StepTrace.Pattern

open Text

variable {pattern : Pattern} {parts : List Pattern} {replacement : Match → List Char}
  {previous : Option Char} {text behind line front back carried : List Char}
  {groups : List (Nat × List Char)}

/-! ## Texts between two places -/

/-- Whether the character separates lines. At the start and at the end of a text there is none. -/
def isBreak (c : Option Char) : Bool :=
  c.all (· == '\n')

theorem occurs_chain_lineEnd_iff (hfree : ∀ part ∈ parts, part.isAnchorFree = true) :
    Occurs (chain (parts ++ [.anchor .lineEnd])) previous text behind groups ↔
      isBreak behind.head? = true ∧ Spells (chain parts) text groups := by
  induction parts generalizing previous text groups with
  | nil =>
      constructor
      · intro h
        cases h with
        | seq h h' =>
            cases h' with
            | empty =>
                cases h with
                | anchor hholds => exact ⟨hholds, .empty⟩
      · rintro ⟨hbreak, h⟩
        cases h
        have hend : Occurs (.anchor .lineEnd) previous [] ([] ++ behind) [] := .anchor hbreak
        exact .seq hend .empty
  | cons part parts ih =>
      obtain ⟨hpart, hparts⟩ := List.forall_mem_cons.mp hfree
      constructor
      · intro h
        cases h with
        | seq h h' =>
            obtain ⟨hbreak, hspells⟩ := (ih hparts).mp h'
            exact ⟨hbreak, .seq h.spells hspells⟩
      · rintro ⟨hbreak, h⟩
        cases h with
        | seq h h' => exact .seq (h.occurs hpart _ _) ((ih hparts).mpr ⟨hbreak, h'⟩)

/-- A pattern for whole lines occurs where its parts spell what stands on a line. -/
theorem occurs_wholeLine_iff (hfree : ∀ part ∈ parts, part.isAnchorFree = true) :
    Occurs (wholeLine parts) previous text behind groups ↔
      isBreak previous = true ∧ isBreak behind.head? = true ∧ Spells (chain parts) text groups := by
  constructor
  · intro h
    cases h with
    | seq h h' =>
        cases h with
        | anchor hholds =>
            rw [List.append_nil]
            exact ⟨hholds, (occurs_chain_lineEnd_iff hfree).mp h'⟩
  · rintro ⟨hbreak, h⟩
    have h' : Occurs (chain (parts ++ [.anchor .lineEnd])) previous text behind groups :=
      (occurs_chain_lineEnd_iff hfree).mpr h
    have hwhole : Occurs (wholeLine parts) previous ([] ++ text) behind (groups ++ []) :=
      .seq (.anchor hbreak) h'
    rwa [List.append_nil] at hwhole

/-! ## Lines of a text -/

theorem joinLines_cons_cons (line next : List Char) (others : List (List Char)) :
    joinLines (line :: next :: others) = line ++ (['\n'] ++ joinLines (next :: others)) :=
  rfl

theorem joinLines_map_cons_cons (f : List Char → List Char) (line next : List Char)
    (others : List (List Char)) :
    joinLines ((line :: next :: others).map f) =
      f line ++ (['\n'] ++ joinLines ((next :: others).map f)) :=
  rfl

/-- What the parts spell is a line that is not empty, and its replacement depends on nothing
else. -/
structure LinePattern (parts : List Pattern) (replacement : Match → List Char) : Prop where
  free : ∀ part ∈ parts, part.isAnchorFree = true
  line : ∀ text groups, Spells (chain parts) text groups → text ≠ [] ∧ '\n' ∉ text
  unique : ∀ text groups groups', Spells (chain parts) text groups →
    Spells (chain parts) text groups' →
      replacement ⟨text, (0, text) :: groups⟩ = replacement ⟨text, (0, text) :: groups'⟩

theorem noneOccurs_nil (pattern : Pattern) (previous : Option Char) (back : List Char) :
    NoneOccurs pattern previous [] back :=
  fun _ _ hfront hleft => absurd (List.append_eq_nil_iff.mp hfront.symm).2 hleft

namespace LinePattern

theorem neverEmpty (h : LinePattern parts replacement) : NeverEmpty (wholeLine parts) :=
  fun _ _ _ hoccurs =>
    (h.line _ _ ((occurs_wholeLine_iff h.free).mp hoccurs).2.2).1 rfl

/-- What occurs at the start of a line is the line. -/
theorem eq_line (h : LinePattern parts replacement) (hline : '\n' ∉ line)
    (hback : isBreak back.head? = true) (heq : line ++ back = text ++ behind)
    (hoccurs : Occurs (wholeLine parts) previous text behind groups) : text = line := by
  obtain ⟨-, hbehind, hspells⟩ := (occurs_wholeLine_iff h.free).mp hoccurs
  have hplain {text : List Char} (htext : '\n' ∉ text) : ∀ c ∈ text, (c != '\n') = true :=
    fun c hc => bne_iff_ne.mpr fun hbreak => htext (hbreak ▸ hc)
  have hends {text : List Char} (htext : isBreak text.head? = true) :
      ∀ c, text.head? = some c → (c != '\n') = false := by
    intro c hc
    rw [hc] at htext
    rw [beq_iff_eq.mp htext]
    rfl
  exact (Lowering.append_inj_of_class heq.symm (hplain (h.line _ _ hspells).2) (hplain hline)
    (hends hbehind) (hends hback)).1

/-- A line that the parts do not spell has no occurrence in it. -/
theorem noneOccurs_line (h : LinePattern parts replacement) (hline : '\n' ∉ line)
    (hback : isBreak back.head? = true) (hnot : ∀ groups, ¬ Spells (chain parts) line groups) :
    NoneOccurs (wholeLine parts) previous line back := by
  intro passed left hpassed hleft text groups rest heq hoccurs
  obtain ⟨hbreak, -, hspells⟩ := (occurs_wholeLine_iff h.free).mp hoccurs
  rcases List.eq_nil_or_concat passed with rfl | ⟨others, c, rfl⟩
  · rw [List.nil_append] at hpassed
    subst hpassed
    rw [h.eq_line hline hback heq hoccurs] at hspells
    exact hnot groups hspells
  · -- within the line there is no newline in front of the occurrence
    rw [List.concat_eq_append, List.getLast?_append, List.getLast?_singleton] at hbreak
    have hc : c = '\n' := beq_iff_eq.mp hbreak
    refine hline ?_
    rw [hpassed, hc]
    simp

theorem noneOccurs_break (h : LinePattern parts replacement) (previous : Option Char)
    (back : List Char) : NoneOccurs (wholeLine parts) previous ['\n'] back := by
  intro passed left hpassed hleft text groups rest heq hoccurs
  obtain ⟨hne, hplain⟩ := h.line _ _ ((occurs_wholeLine_iff h.free).mp hoccurs).2.2
  have hwhole : '\n' :: back = passed ++ (text ++ rest) := by
    rw [← heq, ← List.append_assoc, ← hpassed]
    rfl
  cases passed with
  | nil =>
      cases text with
      | nil => exact hne rfl
      | cons c text => exact hplain ((List.cons.inj hwhole).1 ▸ List.mem_cons_self)
  | cons c passed =>
      exact hleft (List.append_eq_nil_iff.mp (List.cons.inj hpassed).2.symm).2

/-- The text behind the last line that is replaced. -/
theorem cutFrom_nil (h : LinePattern parts replacement) (limit : Nat) (previous : Option Char)
    (isBehind : Bool) :
    (wholeLine parts).cutFrom limit ⟨0, previous, [], [], []⟩ [] isBehind = ⟨[], []⟩ :=
  NoneOccurs.cutFrom rfl rfl h.neverEmpty (noneOccurs_nil _ _ _)

/-- The first line that is left, if the parts spell it. -/
theorem written_cutFrom {limit : Nat} {p : Place} (h : LinePattern parts replacement)
    (carried : List Char) (isBehind : Bool) (hpos : p.pos = 0) (hcaptures : p.captures = [])
    (hrest : p.rest = front ++ (line ++ back)) (hlimit : p.rest.length ≤ limit)
    (hnone : NoneOccurs (wholeLine parts) p.previous front (line ++ back))
    (hstart : isBreak (front.getLast?.or p.previous) = true) (hback : isBreak back.head? = true)
    (hspells : Spells (chain parts) line groups) :
    ((wholeLine parts).cutFrom (limit + 1) p carried isBehind).written replacement =
      carried ++ front ++ replacement ⟨line, (0, line) :: groups⟩ ++
        ((wholeLine parts).cutFrom limit
          ⟨0, line.getLast?.or (front.getLast?.or p.previous), back, [], []⟩
            [] true).written replacement := by
  have hoccurs : Occurs (wholeLine parts) (front.getLast?.or p.previous) line back groups :=
    (occurs_wholeLine_iff h.free).mpr ⟨hstart, hback, hspells⟩
  obtain ⟨groups', hoccurs', hwritten⟩ := cutFrom_occurs carried isBehind
    hpos hcaptures hrest hlimit h.neverEmpty hnone hoccurs
    fun text' groups' behind' heq => h.eq_line (h.line _ _ hspells).2 hback heq
  have hspells' := ((occurs_wholeLine_iff h.free).mp hoccurs').2.2
  rw [hwritten, h.unique line groups groups' hspells hspells']

/-- A line that the parts spell is replaced. -/
theorem replaceAll_line (h : LinePattern parts replacement)
    (hspells : Spells (chain parts) line groups) :
    (wholeLine parts).replaceAll replacement line =
      replacement ⟨line, (0, line) :: groups⟩ := by
  have hrest : (Place.start line).rest = [] ++ (line ++ []) := (List.append_nil line).symm
  have hwritten := h.written_cutFrom [] false rfl rfl hrest
    (Nat.le_refl _) (noneOccurs_nil _ _ _) rfl rfl hspells
  rw [h.cutFrom_nil] at hwritten
  exact hwritten.trans (by simp [Cuts.written])

/-- Another line stays. -/
theorem replaceAll_of_not (h : LinePattern parts replacement) (hline : '\n' ∉ line)
    (hnot : ∀ groups, ¬ Spells (chain parts) line groups) :
    (wholeLine parts).replaceAll replacement line = line := by
  rw [replaceAll_eq_written, cuts,
    NoneOccurs.cutFrom rfl rfl h.neverEmpty (h.noneOccurs_line hline rfl hnot)]
  rfl

/-- The lines that are left, behind a text in which there is no occurrence. The search stands
still at the lines that it passes over and goes on behind those that are replaced. -/
theorem written_lines {lines : List (List Char)} {limit : Nat} {p : Place} {isBehind : Bool}
    (h : LinePattern parts replacement) (hlines : ∀ line ∈ lines, '\n' ∉ line) (hne : lines ≠ [])
    (hpos : p.pos = 0) (hcaptures : p.captures = []) (hrest : p.rest = front ++ joinLines lines)
    (hlimit : p.rest.length < limit)
    (hnone : NoneOccurs (wholeLine parts) p.previous front (joinLines lines))
    (hstart : isBreak (front.getLast?.or p.previous) = true) :
    ((wholeLine parts).cutFrom limit p carried isBehind).written replacement =
      carried ++ front ++ joinLines (lines.map ((wholeLine parts).replaceAll replacement)) := by
  induction lines generalizing p front carried isBehind limit with
  | nil => exact absurd rfl hne
  | cons line others ih =>
      obtain ⟨hline, hothers⟩ := List.forall_mem_cons.mp hlines
      by_cases hspells : ∃ groups, Spells (chain parts) line groups
      · obtain ⟨groups, hspells⟩ := hspells
        cases limit with
        | zero => cases hlimit
        | succ limit =>
          cases others with
          | nil =>
              have hrest' : p.rest = front ++ (line ++ []) := by rw [hrest, List.append_nil]; rfl
              have hnone' : NoneOccurs (wholeLine parts) p.previous front (line ++ []) := by
                rwa [List.append_nil]
              rw [h.written_cutFrom _ _ hpos hcaptures hrest' (Nat.le_of_lt_succ hlimit) hnone'
                hstart rfl hspells, h.cutFrom_nil, List.map_singleton, joinLines,
                h.replaceAll_line hspells]
              exact List.append_nil _
          | cons next more =>
              have hrest' : line.length < p.rest.length ∧ (joinLines (next :: more)).length + 1 ≤
                  p.rest.length - line.length := by
                rw [hrest, joinLines_cons_cons]
                simp only [List.length_append, List.length_singleton]
                omega
              have hlength : 0 < line.length := List.length_pos_iff.mpr (h.line _ _ hspells).1
              rw [joinLines_cons_cons] at hrest hnone
              have hbehind : ((wholeLine parts).cutFrom limit
                  ⟨0, line.getLast?.or (front.getLast?.or p.previous),
                    ['\n'] ++ joinLines (next :: more), [], []⟩ [] true).written replacement =
                  [] ++ ['\n'] ++ joinLines ((next :: more).map
                    ((wholeLine parts).replaceAll replacement)) :=
                ih hothers (List.cons_ne_nil _ _) rfl rfl rfl
                  (by simp only [List.length_append, List.length_singleton]; omega)
                  (h.noneOccurs_break _ _) rfl
              rw [h.written_cutFrom _ _ hpos hcaptures hrest (Nat.le_of_lt_succ hlimit) hnone hstart
                rfl hspells, hbehind, joinLines_map_cons_cons, h.replaceAll_line hspells]
              simp only [List.append_assoc, List.nil_append]
      · have hnot : ∀ groups, ¬ Spells (chain parts) line groups := not_exists.mp hspells
        have hstays := h.replaceAll_of_not hline hnot
        cases others with
        | nil =>
            have hwhole : NoneOccurs (wholeLine parts) p.previous p.rest [] := by
              rw [hrest]
              refine NoneOccurs.append ?_ (h.noneOccurs_line hline rfl hnot)
              rwa [List.append_nil]
            rw [NoneOccurs.cutFrom hpos hcaptures h.neverEmpty hwhole, List.map_singleton,
              joinLines, hstays, hrest, List.append_assoc]
            rfl
        | cons next more =>
            rw [joinLines_cons_cons] at hrest hnone
            have hpassed : p.rest = (front ++ line ++ ['\n']) ++ joinLines (next :: more) := by
              rw [hrest]
              simp only [List.append_assoc]
            have hnone' : NoneOccurs (wholeLine parts) p.previous (front ++ line ++ ['\n'])
                (joinLines (next :: more)) :=
              (hnone.append (h.noneOccurs_line hline rfl hnot)).append (h.noneOccurs_break _ _)
            rw [ih hothers (List.cons_ne_nil _ _) hpos hcaptures hpassed hlimit hnone'
              (by simp; rfl), joinLines_map_cons_cons, hstays]
            simp only [List.append_assoc]

/-- A text is rewritten line by line. -/
theorem replaceAll_joinLines (h : LinePattern parts replacement) {lines : List (List Char)}
    (hlines : ∀ line ∈ lines, '\n' ∉ line) (hne : lines ≠ []) :
    (wholeLine parts).replaceAll replacement (joinLines lines) =
      joinLines (lines.map ((wholeLine parts).replaceAll replacement)) := by
  rw [replaceAll_eq_written, cuts]
  exact h.written_lines hlines hne rfl rfl rfl (Nat.lt_succ_self _) (noneOccurs_nil _ _ _) rfl

end LinePattern

end StepTrace.Pattern
