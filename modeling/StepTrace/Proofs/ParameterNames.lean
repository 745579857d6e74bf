import StepTrace.Proofs.LinePatterns
import StepTrace.Proofs.ScannedGaps

/-!
# The names of parameters

A parameter is a type, marks of the type, a name, brackets behind the name and a default. The name
is what `paramName` finds at the end of the text in front of the default: in the type and between
it and the name no match can begin, because only blanks and brackets may follow a name up to the
end, and there the name follows (`TypeMarks.trailing`).

* `untypedParam_text`: without type and default a parameter is its name.
* `untypedParams_join`: a list of parameters is the list of their names, in the same order.
-/

namespace StepTrace.Text

variable {c : Char} {front text back piece rest : List Char} {pieces : List (List Char)}

/-! ## Trimmed and cut texts -/

theorem isWordChar_of_isBlank (h : isBlank c = true) : isWordChar c = false := by
  by_cases hascii : c.toNat < 0x80
  · rw [isWordChar_of_ascii hascii]
    refine Bool.eq_false_iff.mpr fun hword => ?_
    simp only [isAsciiWordChar, Bool.or_eq_true, Syntax.isAlphanum_iff, beq_iff_eq] at hword
    simp only [isBlank, Bool.or_eq_true, Bool.and_eq_true, decide_eq_true_eq, beq_iff_eq] at h
    rcases hword with hword | rfl
    · omega
    · exact absurd h (by decide)
  · have hranges : (Capture.wideBlanks.all fun n =>
        ! (inRanges letterRanges n || inRanges otherWordRanges n)) = true := by
      decide +kernel
    have hword := List.all_eq_true.mp hranges _ (Capture.mem_wideBlanks h hascii)
    simp only [Bool.not_eq_true'] at hword
    simp [isWordChar, hascii, hword]

theorem not_isBlank_of_isWordChar (h : isWordChar c = true) : isBlank c = false := by
  refine Bool.eq_false_iff.mpr fun hblank => ?_
  rw [isWordChar_of_isBlank hblank] at h
  cases h

theorem trimEnd_append (hback : ∀ c ∈ back, isBlank c = true)
    (hlast : ∀ c, text.getLast? = some c → isBlank c = false) : trimEnd (text ++ back) = text := by
  unfold trimEnd
  rw [List.reverse_append,
    List.dropWhile_append_of_pos fun c hc => hback c (List.mem_reverse.mp hc)]
  rcases List.eq_nil_or_concat text with rfl | ⟨text, c, rfl⟩
  · rfl
  · rw [List.concat_eq_append] at hlast ⊢
    have hc := hlast c List.getLast?_concat
    rw [List.reverse_append, List.reverse_singleton, List.singleton_append,
      List.dropWhile_cons_of_neg (by rw [hc]; exact Bool.false_ne_true), List.reverse_cons,
      List.reverse_reverse]

theorem trimStart_of_blanks (hfront : ∀ c ∈ front, isBlank c = true)
    (hhead : ∀ c, text.head? = some c → isBlank c = false) : trimStart (front ++ text) = text := by
  unfold trimStart
  rw [List.dropWhile_append_of_pos hfront]
  cases text with
  | nil => rfl
  | cons c text =>
      exact List.dropWhile_cons_of_neg (by rw [hhead c rfl]; exact Bool.false_ne_true)

/-- Trimming takes the blanks away that stand around the text. -/
theorem trim_eq (hfront : ∀ c ∈ front, isBlank c = true) (hback : ∀ c ∈ back, isBlank c = true)
    (hne : text ≠ []) (hhead : ∀ c, text.head? = some c → isBlank c = false)
    (hlast : ∀ c, text.getLast? = some c → isBlank c = false) :
    trim (front ++ (text ++ back)) = text := by
  have hstart : trimStart (front ++ (text ++ back)) = text ++ back := by
    refine trimStart_of_blanks hfront fun c hc => hhead c ?_
    rwa [List.head?_append_of_ne_nil _ hne] at hc
  rw [trim, hstart, trimEnd_append hback hlast]

/-- Behind a character that is not blank the end is trimmed, and nothing in front of it. -/
theorem trimEnd_append_cons (hc : isBlank c = false) :
    trimEnd (front ++ c :: back) = front ++ c :: trimEnd back := by
  unfold trimEnd
  have hstop : (front ++ c :: back).reverse = back.reverse ++ (c :: front.reverse) := by simp
  rw [hstop, List.dropWhile_append]
  split
  · rename_i hempty
    rw [List.isEmpty_iff.mp hempty,
      List.dropWhile_cons_of_neg (by rw [hc]; exact Bool.false_ne_true)]
    simp
  · simp

theorem cutFirst?_of_notMem (h : c ∉ text) : cutFirst? [c] text = none := by
  induction text with
  | nil => rfl
  | cons d text ih =>
      obtain ⟨hd, htext⟩ := not_or.mp (List.mem_cons.not.mp h)
      have hfails : ([c] : List Char).isPrefixOf (d :: text) = false := by
        simp [List.isPrefixOf, hd]
      unfold cutFirst?
      rw [hfails, if_neg Bool.false_ne_true, ih htext]
      rfl

theorem cutFirst?_of_cons (h : c ∉ piece) :
    cutFirst? [c] (piece ++ c :: rest) = some (piece, rest) := by
  induction piece with
  | nil => simp [cutFirst?, List.isPrefixOf]
  | cons d piece ih =>
      obtain ⟨hd, hpiece⟩ := not_or.mp (List.mem_cons.not.mp h)
      have hfails : ([c] : List Char).isPrefixOf (d :: (piece ++ c :: rest)) = false := by
        simp [List.isPrefixOf, hd]
      rw [List.cons_append, cutFirst?, hfails, if_neg Bool.false_ne_true, ih hpiece]
      rfl

theorem join_singleton (separator piece : List Char) : join separator [piece] = piece := by
  simp [join]

theorem join_cons_cons (separator piece next : List Char) (others : List (List Char)) :
    join separator (piece :: next :: others) =
      piece ++ (separator ++ join separator (next :: others)) := by
  simp [join, List.intercalate]

theorem mem_join {separator : List Char} (h : c ∈ join separator pieces) :
    c ∈ separator ∨ ∃ piece ∈ pieces, c ∈ piece := by
  induction pieces with
  | nil => cases h
  | cons piece pieces ih =>
      cases pieces with
      | nil => exact Or.inr ⟨piece, List.mem_cons_self, join_singleton separator piece ▸ h⟩
      | cons next others =>
          rw [join_cons_cons, List.mem_append, List.mem_append] at h
          rcases h with h | h | h
          · exact Or.inr ⟨piece, List.mem_cons_self, h⟩
          · exact Or.inl h
          · refine (ih h).imp_right fun hmem => ?_
            obtain ⟨p, hp, hc⟩ := hmem
            exact ⟨p, List.mem_cons_of_mem _ hp, hc⟩

/-- Cutting undoes joining. -/
theorem cut_join (hne : pieces ≠ []) (h : ∀ piece ∈ pieces, c ∉ piece) :
    cut [c] (join [c] pieces) = pieces := by
  induction pieces with
  | nil => exact absurd rfl hne
  | cons piece pieces ih =>
      obtain ⟨hpiece, hpieces⟩ := List.forall_mem_cons.mp h
      have hsome : ¬ ([c] : List Char) = [] := List.cons_ne_nil _ _
      cases pieces with
      | nil =>
          rw [join_singleton, cut, dif_neg hsome]
          split
          · rfl
          · rename_i before after hcut
            rw [cutFirst?_of_notMem hpiece] at hcut
            cases hcut
      | cons next others =>
          rw [join_cons_cons, List.singleton_append, cut, dif_neg hsome]
          split
          · rename_i hcut
            rw [cutFirst?_of_cons hpiece] at hcut
            cases hcut
          · rename_i before after hcut
            rw [cutFirst?_of_cons hpiece] at hcut
            cases hcut
            rw [ih (List.cons_ne_nil _ _) hpieces]

end StepTrace.Text

namespace StepTrace.Lowering

open Pattern

/-! ## Types and names -/

/-- Between a type and a name: blanks, stars, ampersands and pairs of brackets. -/
inductive TypeMarks : List Char → Prop
  | none : TypeMarks []
  | blank {c : Char} {rest : List Char} (hc : isGapChar c = true) (h : TypeMarks rest) :
    TypeMarks (c :: rest)
  | sigil {c : Char} {rest : List Char} (hc : oneIn "*&" c = true) (h : TypeMarks rest) :
    TypeMarks (c :: rest)
  | brackets {gap rest : List Char} (hgap : ∀ c ∈ gap, isGapChar c = true)
    (h : TypeMarks rest) : TypeMarks ('[' :: (gap ++ ']' :: rest))

/-- Behind the name of a parameter: blanks and brackets with any text between them. -/
inductive Trailing : List Char → Prop
  | none : Trailing []
  | blank {c : Char} {rest : List Char} (hc : isGapChar c = true) (h : Trailing rest) :
    Trailing (c :: rest)
  | brackets {inner rest : List Char} (hinner : ']' ∉ inner) (h : Trailing rest) :
    Trailing ('[' :: (inner ++ ']' :: rest))

/-- A character that may stand between a type and a name. -/
def isMarkChar : Char → Bool :=
  oneIn " \t*&[]"

theorem isMarkChar_of_isGapChar {c : Char} (h : isGapChar c = true) : isMarkChar c = true := by
  have hmem : c ∈ [' ', '\t'] := List.contains_iff_mem.mp h
  rcases List.mem_cons.mp hmem with rfl | hmem
  · rfl
  · rw [List.mem_singleton.mp hmem]
    rfl

theorem isMarkChar_of_sigil {c : Char} (h : oneIn "*&" c = true) : isMarkChar c = true := by
  have hmem : c ∈ ['*', '&'] := List.contains_iff_mem.mp h
  rcases List.mem_cons.mp hmem with rfl | hmem
  · rfl
  · rw [List.mem_singleton.mp hmem]
    rfl

theorem isWordChar_of_isMarkChar {c : Char} (h : isMarkChar c = true) :
    Text.isWordChar c = false := by
  have hmem : c ∈ [' ', '\t', '*', '&', '[', ']'] := List.contains_iff_mem.mp h
  have hall : ∀ c ∈ [' ', '\t', '*', '&', '[', ']'], Text.isWordChar c = false := by
    simp only [List.forall_mem_cons]
    exact ⟨rfl, rfl, rfl, rfl, rfl, rfl, List.forall_mem_nil _⟩
  exact hall c hmem

theorem TypeMarks.isMarkChar {marks : List Char} (h : TypeMarks marks) :
    ∀ c ∈ marks, isMarkChar c = true := by
  induction h with
  | none => exact List.forall_mem_nil _
  | blank hc _ ih => exact List.forall_mem_cons.mpr ⟨isMarkChar_of_isGapChar hc, ih⟩
  | sigil hc _ ih => exact List.forall_mem_cons.mpr ⟨isMarkChar_of_sigil hc, ih⟩
  | brackets hgap _ ih =>
      refine List.forall_mem_cons.mpr ⟨rfl, List.forall_mem_append.mpr ⟨fun c hc => ?_, ?_⟩⟩
      · exact isMarkChar_of_isGapChar (hgap c hc)
      · exact List.forall_mem_cons.mpr ⟨rfl, ih⟩

theorem IsName.head {name : List Char} (h : IsName name) (rest : List Char) :
    ∃ c, (name ++ rest).head? = some c ∧ Text.isWordChar c = true := by
  obtain ⟨c, others, rfl, hc, -⟩ := h
  exact ⟨c, rfl, isWordChar_of_isNameHead hc⟩

/-- No character of the class stands in front of a text that begins with another one. -/
theorem head?_append {p : Char → Bool} {front back : List Char} (hfront : ∀ c ∈ front, p c = false)
    (hback : ∀ c, back.head? = some c → p c = false) :
    ∀ c, (front ++ back).head? = some c → p c = false := by
  intro c hc
  cases front with
  | nil => exact hback c hc
  | cons d front =>
      cases hc
      exact hfront c List.mem_cons_self

namespace Trailing

variable {text marks name rest : List Char} {c : Char}

theorem head_not_isWordChar (h : Trailing text) :
    ∀ c, text.head? = some c → Text.isWordChar c = false := by
  intro c hc
  cases h with
  | none => cases hc
  | blank hgap _ =>
      cases hc
      exact isWordChar_of_isGapChar hgap
  | brackets _ _ =>
      cases hc
      rfl

theorem not_name (hname : IsName name) : ¬ Trailing (name ++ rest) := by
  intro h
  obtain ⟨c, hc, hword⟩ := hname.head rest
  rw [h.head_not_isWordChar c hc] at hword
  cases hword

theorem of_cons (h : Trailing (c :: rest)) (hc : c ≠ '[') :
    isGapChar c = true ∧ Trailing rest := by
  generalize hwhole : c :: rest = text at h
  cases h with
  | none => cases hwhole
  | blank hgap h =>
      obtain ⟨rfl, rfl⟩ := List.cons.inj hwhole
      exact ⟨hgap, h⟩
  | brackets _ _ => exact absurd (List.cons.inj hwhole).1 hc

theorem of_brackets {inner : List Char} (hinner : ']' ∉ inner)
    (h : Trailing ('[' :: (inner ++ ']' :: rest))) : Trailing rest := by
  have hplain {text : List Char} (htext : ']' ∉ text) : ∀ c ∈ text, (c != ']') = true :=
    fun c hc => bne_iff_ne.mpr fun heq => htext (heq ▸ hc)
  generalize hwhole : '[' :: (inner ++ ']' :: rest) = text at h
  cases h with
  | none => cases hwhole
  | blank hc _ =>
      cases (List.cons.inj hwhole).1
      cases hc
  | brackets hinner' h =>
      obtain ⟨-, hbehind⟩ := append_inj_of_class (List.cons.inj hwhole).2 (hplain hinner)
        (hplain hinner') (by rintro c ⟨⟩; rfl) (by rintro c ⟨⟩; rfl)
      cases (List.cons.inj hbehind).2
      exact h

end Trailing

/-- If only blanks and brackets follow, then they follow behind the marks too. -/
theorem TypeMarks.trailing {marks rest : List Char} (hmarks : TypeMarks marks)
    (h : Trailing (marks ++ rest)) : Trailing rest := by
  induction hmarks with
  | none => exact h
  | blank hc _ ih => exact ih (h.of_cons (by rintro rfl; cases hc)).2
  | sigil hc _ ih => exact ih (h.of_cons (by rintro rfl; cases hc)).2
  | @brackets gap behind hgap _ ih =>
      have hgap' : ']' ∉ gap := by
        intro hmem
        cases hgap _ hmem
      rw [List.cons_append, List.append_assoc] at h
      exact ih (h.of_brackets hgap')

/-! ## The name of a parameter -/

/-- Brackets with blanks behind them. -/
def bracketPiece : Pattern :=
  chain [literal "[", .run 0 (notIn "]"), literal "]", gap]

theorem notIn_bracket_iff {inner : List Char} :
    (∀ c ∈ inner, notIn "]" c = true) ↔ ']' ∉ inner := by
  have hchar (c : Char) : notIn "]" c = true ↔ c ≠ ']' := by
    change (! [']'].contains c) = true ↔ c ≠ ']'
    simp
  constructor
  · exact fun h hmem => (hchar ']').mp (h _ hmem) rfl
  · exact fun h c hc => (hchar c).mpr fun heq => h (heq ▸ hc)

theorem spells_identifier_iff {text : List Char} {groups : List (Nat × List Char)} :
    Spells identifier text groups ↔ IsName text ∧ groups = [] := by
  constructor
  · intro h
    cases h with
    | seq hhead htail =>
        cases hhead with
        | char hc =>
            cases htail with
            | run _ htail => exact ⟨⟨_, _, rfl, hc, htail⟩, rfl⟩
  · rintro ⟨⟨c, rest, rfl, hc, hrest⟩, rfl⟩
    exact .seq (.char hc) (.run (Nat.zero_le _) hrest)

theorem spells_bracketPiece {inner gap : List Char} (hinner : ']' ∉ inner)
    (hgap : ∀ c ∈ gap, isGapChar c = true) :
    Spells bracketPiece ('[' :: (inner ++ ']' :: gap)) [] := by
  have hopen : Spells (literal "[") ['['] [] := .seq (.char rfl) .empty
  have hclose : Spells (literal "]") [']'] [] := .seq (.char rfl) .empty
  have hinner : Spells (.run 0 (notIn "]")) inner [] :=
    .run (Nat.zero_le _) (notIn_bracket_iff.mpr hinner)
  have hgap : Spells (.run 0 (oneIn " \t")) gap [] := .run (Nat.zero_le _) hgap
  have hwhole : Spells bracketPiece (['['] ++ (inner ++ ([']'] ++ (gap ++ [])))) [] :=
    .seq hopen (.seq hinner (.seq hclose (.seq hgap .empty)))
  rwa [List.append_nil] at hwhole

theorem Trailing.of_gap {gap rest : List Char} (hgap : ∀ c ∈ gap, isGapChar c = true)
    (h : Trailing rest) : Trailing (gap ++ rest) := by
  induction gap with
  | nil => exact h
  | cons c gap ih =>
      obtain ⟨hc, hgap⟩ := List.forall_mem_cons.mp hgap
      exact .blank hc (ih hgap)

theorem trailing_of_spells {text : List Char} {groups : List (Nat × List Char)}
    (h : Spells (.many bracketPiece) text groups) : Trailing text ∧ groups = [] := by
  generalize hmany : Pattern.many bracketPiece = pattern at h
  induction h with
  | manyNone => exact ⟨.none, rfl⟩
  | manyMore h _ _ ih =>
      obtain rfl := Pattern.many.inj hmany
      obtain ⟨hrest, rfl⟩ := ih rfl
      cases h with
      | seq hopen h =>
      cases h with
      | seq hinner h =>
      cases h with
      | seq hclose h =>
      cases h with
      | seq hgap h =>
      cases h
      obtain ⟨rfl, rfl⟩ := eq_of_spells_mark '[' hopen
      obtain ⟨rfl, rfl⟩ := eq_of_spells_mark ']' hclose
      cases hinner with
      | run _ hinner =>
      cases hgap with
      | run _ hgap =>
      have hwhole := Trailing.brackets (notIn_bracket_iff.mp hinner) (hrest.of_gap hgap)
      exact ⟨by simpa using hwhole, rfl⟩
  | _ => cases hmany

theorem Trailing.exists_spells {text : List Char} (h : Trailing text) :
    ∃ gap pieces, text = gap ++ pieces ∧ (∀ c ∈ gap, isGapChar c = true) ∧
      Spells (.many bracketPiece) pieces [] := by
  induction h with
  | none => exact ⟨[], [], rfl, List.forall_mem_nil _, .manyNone⟩
  | blank hc _ ih =>
      obtain ⟨gap, pieces, rfl, hgap, hpieces⟩ := ih
      exact ⟨_ :: gap, pieces, rfl, List.forall_mem_cons.mpr ⟨hc, hgap⟩, hpieces⟩
  | @brackets inner _ hinner _ ih =>
      obtain ⟨gap, pieces, rfl, hgap, hpieces⟩ := ih
      refine ⟨[], '[' :: (inner ++ ']' :: gap) ++ pieces, by simp, List.forall_mem_nil _, ?_⟩
      exact .manyMore (spells_bracketPiece hinner hgap) hpieces

/-- The name is found at the end of a text, in front of blanks and brackets. -/
theorem occurs_paramName_iff {text behind : List Char} {previous : Option Char}
    {groups : List (Nat × List Char)} :
    Occurs paramName previous text behind groups ↔
      behind = [] ∧ ∃ name trailing, text = name ++ trailing ∧ IsName name ∧ Trailing trailing ∧
        groups = [(1, name)] := by
  constructor
  · intro h
    cases h with
    | seq hname h =>
    cases h with
    | seq hgap h =>
    cases h with
    | seq hpieces h =>
    cases h with
    | seq hend h =>
    cases h
    cases hend with
    | anchor hend =>
    cases hname with
    | group hname =>
    cases hgap with
    | run _ hgap =>
    obtain ⟨hisName, rfl⟩ := spells_identifier_iff.mp hname.spells
    obtain ⟨htrailing, rfl⟩ := trailing_of_spells hpieces.spells
    refine ⟨List.isEmpty_iff.mp hend, _, _, ?_, hisName, htrailing.of_gap hgap, rfl⟩
    simp only [List.append_nil]
  · rintro ⟨rfl, name, trailing, rfl, hname, htrailing, rfl⟩
    obtain ⟨blanks, pieces, rfl, hblanks, hpieces⟩ := htrailing.exists_spells
    have hname : Spells (.group 1 identifier) name [(1, name)] :=
      .group (spells_identifier_iff.mpr ⟨hname, rfl⟩)
    have hwhole : Occurs paramName previous (name ++ (blanks ++ (pieces ++ ([] ++ [])))) []
        [(1, name)] :=
      .seq (hname.occurs rfl _ _) (.seq (.run (Nat.zero_le _) hblanks)
        (.seq (hpieces.occurs rfl _ _) (.seq (.anchor rfl) .empty)))
    rwa [List.append_nil, List.append_nil] at hwhole

section

variable {marks name trailing : List Char} {type : List Char}

/-- In the type and between the type and the name no match begins. -/
theorem noneOccurs_type (htype : IsName type) (hmarks : TypeMarks marks) (hne : marks ≠ [])
    (hname : IsName name) :
    NoneOccurs paramName none (type ++ marks) (name ++ trailing) := by
  intro passed left hleft hleftNe text groups rest heq hoccurs
  obtain ⟨rfl, name', trailing', rfl, hname', htrailing', -⟩ := occurs_paramName_iff.mp hoccurs
  rw [List.append_nil] at heq
  have hmarksHead {marks rest : List Char} (hmarks : ∀ c ∈ marks, isMarkChar c = true)
      (hne : marks ≠ []) : ∀ c, (marks ++ rest).head? = some c → Text.isWordChar c = false := by
    intro c hc
    rw [List.head?_append_of_ne_nil _ hne] at hc
    exact isWordChar_of_isMarkChar (hmarks c (List.mem_of_mem_head? hc))
  -- a match begins with a letter, and so in the type
  have hstart {marks : List Char} (hmarks : ∀ c ∈ marks, isMarkChar c = true) (hne : marks ≠ []) :
      marks ++ (name ++ trailing) ≠ name' ++ trailing' := by
    intro heq
    obtain ⟨c, hc, hword⟩ := hname'.head trailing'
    rw [hmarksHead hmarks hne c (heq ▸ hc)] at hword
    cases hword
  rcases List.append_eq_append_iff.mp hleft with ⟨more, -, rfl⟩ | ⟨more, rfl, rfl⟩
  · exact hstart (fun c hc => hmarks.isMarkChar c (List.mem_append_right _ hc)) hleftNe heq
  · by_cases hmore : more = []
    · subst hmore
      exact hstart hmarks.isMarkChar hne heq
    · rw [List.append_assoc] at heq
      obtain ⟨-, hbehind⟩ := append_inj_of_class heq
        (fun c hc => htype.isWordChar c (List.mem_append_right _ hc)) hname'.isWordChar
        (hmarksHead hmarks.isMarkChar hne) htrailing'.head_not_isWordChar
      exact Trailing.not_name hname (hmarks.trailing (hbehind ▸ htrailing'))

theorem find?_paramName (htype : IsName type) (hmarks : TypeMarks marks) (hne : marks ≠ [])
    (hname : IsName name) (htrailing : Trailing trailing) :
    ∃ m, paramName.find? (type ++ (marks ++ (name ++ trailing))) = some m ∧ m.group 1 = name := by
  have hrest : (Place.start (type ++ (marks ++ (name ++ trailing)))).rest =
      (type ++ marks) ++ ((name ++ trailing) ++ []) := by
    simp only [Place.start, List.append_nil, List.append_assoc]
  have hnone : NoneOccurs paramName none (type ++ marks) ((name ++ trailing) ++ []) := by
    rw [List.append_nil]
    exact noneOccurs_type htype hmarks hne hname
  have hoccurs : Occurs paramName ((type ++ marks).getLast?.or none) (name ++ trailing) []
      [(1, name)] :=
    occurs_paramName_iff.mpr ⟨rfl, name, trailing, rfl, hname, htrailing, rfl⟩
  obtain ⟨text, groups, behind, hoccurs', heq, hfind⟩ :=
    findFrom?_occurs rfl rfl hrest (Nat.lt_succ_self _) hnone hoccurs
  obtain ⟨rfl, name', trailing', rfl, hname', htrailing', rfl⟩ := occurs_paramName_iff.mp hoccurs'
  rw [List.append_nil, List.append_nil] at heq
  obtain ⟨rfl, -⟩ := append_inj_of_class heq hname.isWordChar hname'.isWordChar
    htrailing.head_not_isWordChar htrailing'.head_not_isWordChar
  exact ⟨⟨name ++ trailing', [(0, name ++ trailing'), (1, name)]⟩,
    congrArg (Option.map Found.hit) hfind, rfl⟩

end

/-! ## Parameters -/

/-- A character that may stand in a parameter: no comma, no parenthesis, no newline. -/
def isInnerChar : Char → Bool :=
  notIn "(),\n"

theorem isInnerChar_of_isWordChar {c : Char} (h : Text.isWordChar c = true) :
    isInnerChar c = true := by
  change (! ['(', ')', ',', '\n'].contains c) = true
  refine Bool.not_eq_true' _ ▸ Bool.eq_false_iff.mpr fun hmem => ?_
  have hall : ∀ c ∈ ['(', ')', ',', '\n'], Text.isWordChar c = false := by
    simp only [List.forall_mem_cons]
    exact ⟨rfl, rfl, rfl, rfl, List.forall_mem_nil _⟩
  rw [hall c (List.contains_iff_mem.mp hmem)] at h
  cases h

theorem isInnerChar_of_isMarkChar {c : Char} (h : isMarkChar c = true) : isInnerChar c = true := by
  have hall : ∀ c ∈ [' ', '\t', '*', '&', '[', ']'], isInnerChar c = true := by
    simp only [List.forall_mem_cons]
    exact ⟨rfl, rfl, rfl, rfl, rfl, rfl, List.forall_mem_nil _⟩
  exact hall c (List.contains_iff_mem.mp h)

/-- A parameter of a typed language: blanks, a type with its marks, a name, what stands behind the
name, and the text of a default, if there is one. -/
structure Parameter where
  blanks : List Char
  type : List Char
  marks : List Char
  name : List Char
  trailing : List Char
  default? : Option (List Char)
  blanks_gap : ∀ c ∈ blanks, isGapChar c = true
  type_name : IsName type
  marks_spec : TypeMarks marks
  marks_ne : marks ≠ []
  name_name : IsName name
  trailing_spec : Trailing trailing
  trailing_inner : ∀ c ∈ trailing, isInnerChar c = true ∧ c ≠ '='
  default_inner : ∀ c ∈ default?.getD [], isInnerChar c = true

namespace Parameter

variable (p : Parameter)

/-- The parameter without the blanks in front and without its default. -/
def core : List Char :=
  p.type ++ (p.marks ++ (p.name ++ p.trailing))

/-- The text of a parameter. -/
def text : List Char :=
  p.blanks ++ (p.core ++ (p.default?.map ('=' :: ·)).getD [])

theorem equals_notMem_core : '=' ∉ p.core := by
  have hword {name : List Char} (hname : IsName name) : '=' ∉ name := fun hmem => by
    cases hname.isWordChar _ hmem
  have hmarks : '=' ∉ p.marks := fun hmem => by
    cases p.marks_spec.isMarkChar _ hmem
  have htrailing : '=' ∉ p.trailing := fun hmem => (p.trailing_inner _ hmem).2 rfl
  simp only [core, List.mem_append, not_or]
  exact ⟨hword p.type_name, hmarks, hword p.name_name, htrailing⟩

end Parameter

theorem isBlank_of_isGapChar {c : Char} (h : isGapChar c = true) : Text.isBlank c = true := by
  have hmem : c ∈ [' ', '\t'] := List.contains_iff_mem.mp h
  rcases List.mem_cons.mp hmem with rfl | hmem
  · rfl
  · rw [List.mem_singleton.mp hmem]
    rfl

/-- What stands behind a name, up to the last bracket, and the blanks at the end. -/
theorem Trailing.exists_trimmed {text : List Char} (h : Trailing text) :
    ∃ front gap, text = front ++ gap ∧ Trailing front ∧ (∀ c ∈ gap, isGapChar c = true) ∧
      (front = [] ∨ front.getLast? = some ']') := by
  induction h with
  | none => exact ⟨[], [], rfl, .none, List.forall_mem_nil _, Or.inl rfl⟩
  | @blank c rest hc _ ih =>
      obtain ⟨front, gap, rfl, hfront, hgap, hlast⟩ := ih
      rcases hlast with rfl | hlast
      · exact ⟨[], c :: gap, rfl, .none, List.forall_mem_cons.mpr ⟨hc, hgap⟩, Or.inl rfl⟩
      · refine ⟨c :: front, gap, rfl, .blank hc hfront, hgap, Or.inr ?_⟩
        rw [List.getLast?_cons, hlast]
        rfl
  | @brackets inner rest hinner _ ih =>
      obtain ⟨front, gap, rfl, hfront, hgap, hlast⟩ := ih
      refine ⟨'[' :: (inner ++ ']' :: front), gap, by simp, .brackets hinner hfront, hgap,
        Or.inr ?_⟩
      rcases hlast with rfl | hlast
      · exact List.getLast?_concat (l := '[' :: inner)
      · simp [List.getLast?_cons, List.getLast?_append, hlast]

namespace Parameter

variable (p : Parameter)

theorem head?_type_append (rest : List Char) :
    ∀ c, (p.type ++ rest).head? = some c → Text.isBlank c = false := by
  obtain ⟨c, others, htype, hc, -⟩ := p.type_name
  intro d hd
  rw [htype] at hd
  cases hd
  exact Text.not_isBlank_of_isWordChar (isWordChar_of_isNameHead hc)

/-- Up to the last bracket, or to the name, a parameter does not end in a blank. -/
theorem getLast?_stem {trailing : List Char} (h : trailing = [] ∨ trailing.getLast? = some ']') :
    ∀ c, (p.type ++ (p.marks ++ (p.name ++ trailing))).getLast? = some c →
      Text.isBlank c = false := by
  intro c hc
  rw [List.getLast?_append, List.getLast?_append, List.getLast?_append] at hc
  rcases h with rfl | h
  · obtain ⟨d, rest, hname, -⟩ := p.name_name
    have hsome : p.name.getLast? = some (p.name.getLast (by rw [hname]; simp)) :=
      List.getLast?_eq_some_getLast _
    rw [List.getLast?_nil, Option.none_or, hsome, Option.some_or, Option.some_or] at hc
    cases hc
    exact Text.not_isBlank_of_isWordChar (p.name_name.isWordChar _ (List.getLast_mem _))
  · rw [h] at hc
    cases hc
    rfl

/-- What is left of the trimmed parameter in front of its default, trimmed again, ends in the name
and in what stands behind that. -/
theorem exists_trimmed : ∃ trailing more, Trailing trailing ∧
    Text.trim p.text = p.type ++ (p.marks ++ (p.name ++ trailing)) ++ more ∧
      Text.trim ((Text.trim p.text).takeWhile (· ≠ '=')) =
        p.type ++ (p.marks ++ (p.name ++ trailing)) := by
  obtain ⟨trailing, gap, htrailing, hspec, hgap, hend⟩ := p.trailing_spec.exists_trimmed
  have hlast := p.getLast?_stem hend
  have hhead := p.head?_type_append (p.marks ++ (p.name ++ trailing))
  have hne : p.type ++ (p.marks ++ (p.name ++ trailing)) ≠ [] := by
    simp [p.marks_ne]
  have hcore : p.core = p.type ++ (p.marks ++ (p.name ++ trailing)) ++ gap := by
    rw [core, htrailing]
    simp only [List.append_assoc]
  refine ⟨trailing, ?_⟩
  generalize p.type ++ (p.marks ++ (p.name ++ trailing)) = stem at hlast hhead hne hcore ⊢
  have hgap : ∀ c ∈ gap, Text.isBlank c = true := fun c hc => isBlank_of_isGapChar (hgap c hc)
  have hblanks : ∀ c ∈ p.blanks, Text.isBlank c = true :=
    fun c hc => isBlank_of_isGapChar (p.blanks_gap c hc)
  have htrim {back : List Char} (hback : ∀ c ∈ back, Text.isBlank c = true) :
      Text.trim (stem ++ back) = stem := by
    have hnone : ∀ c ∈ ([] : List Char), Text.isBlank c = true := List.forall_mem_nil _
    have htrimmed := Text.trim_eq hnone hback hne hhead hlast
    exact htrimmed
  have hplain {text : List Char} (htext : text <+: p.core) :
      ∀ c ∈ text, decide (c ≠ '=') = true :=
    fun c hc => decide_eq_true fun heq => p.equals_notMem_core (htext.subset (heq ▸ hc))
  have hdrop : Text.trimStart p.text = p.core ++ (p.default?.map ('=' :: ·)).getD [] :=
    Text.trimStart_of_blanks hblanks (by rw [core, List.append_assoc]; exact p.head?_type_append _)
  rw [Text.trim, hdrop]
  cases p.default? with
  | none =>
      have hend : Text.trimEnd (p.core ++ []) = stem := by
        rw [List.append_nil, hcore]
        exact Text.trimEnd_append hgap hlast
      refine ⟨[], hspec, ?_, ?_⟩
      · exact hend.trans (List.append_nil _).symm
      · change Text.trim ((Text.trimEnd (p.core ++ [])).takeWhile _) = _
        rw [hend, List.takeWhile_eq_self_iff.mpr (hplain (hcore ▸ List.prefix_append _ _))]
        exact (congrArg Text.trim (List.append_nil stem).symm).trans (htrim (List.forall_mem_nil _))
  | some default =>
      have hend : Text.trimEnd (p.core ++ '=' :: default) = p.core ++ '=' :: Text.trimEnd default :=
        Text.trimEnd_append_cons rfl
      refine ⟨gap ++ '=' :: Text.trimEnd default, hspec, ?_, ?_⟩
      · refine hend.trans ?_
        rw [hcore, List.append_assoc]
      · change Text.trim ((Text.trimEnd (p.core ++ '=' :: default)).takeWhile _) = _
        rw [hend, List.takeWhile_append_of_pos (hplain List.prefix_rfl),
          List.takeWhile_cons_of_neg (by simp), List.append_nil, hcore]
        exact htrim hgap

/-- Between type and name stands something that is no word character. -/
theorem ne_void (rest : List Char) : p.type ++ (p.marks ++ rest) ≠ "void".toList := by
  intro hvoid
  obtain ⟨mark, others, hmarks⟩ := List.exists_cons_of_ne_nil p.marks_ne
  have hword : ∀ c ∈ "void".toList, Text.isWordChar c = true := by
    change ∀ c ∈ ['v', 'o', 'i', 'd'], Text.isWordChar c = true
    simp only [List.forall_mem_cons]
    exact ⟨rfl, rfl, rfl, rfl, List.forall_mem_nil _⟩
  have hmark := isWordChar_of_isMarkChar (p.marks_spec.isMarkChar mark (by simp [hmarks]))
  rw [hword mark (by rw [← hvoid, hmarks]; simp)] at hmark
  cases hmark

/-- Without type and default a parameter is its name. -/
theorem untypedParam_text : untypedParam? p.text = some p.name := by
  obtain ⟨trailing, more, hspec, htrim, hcut⟩ := p.exists_trimmed
  have hkept : ¬ ((Text.trim p.text).isEmpty || Text.trim p.text = "void".toList) = true := by
    rw [htrim, Bool.or_eq_true, decide_eq_true_eq]
    rintro (hempty | hvoid)
    · simp [p.marks_ne] at hempty
    · simp only [List.append_assoc] at hvoid
      exact p.ne_void _ hvoid
  obtain ⟨m, hfind, hgroup⟩ :=
    find?_paramName p.type_name p.marks_spec p.marks_ne p.name_name hspec
  rw [untypedParam?, if_neg hkept, hcut, hfind, Option.map_some, hgroup]

/-- Commas, parentheses and newlines stand in no parameter. -/
theorem isInnerChar_text : ∀ c ∈ p.text, isInnerChar c = true := by
  have hword {name : List Char} (hname : IsName name) : ∀ c ∈ name, isInnerChar c = true :=
    fun c hc => isInnerChar_of_isWordChar (hname.isWordChar c hc)
  have hmark : ∀ c ∈ p.marks, isInnerChar c = true :=
    fun c hc => isInnerChar_of_isMarkChar (p.marks_spec.isMarkChar c hc)
  have hblank : ∀ c ∈ p.blanks, isInnerChar c = true :=
    fun c hc => isInnerChar_of_isMarkChar (isMarkChar_of_isGapChar (p.blanks_gap c hc))
  have hdefault : ∀ c ∈ (p.default?.map ('=' :: ·)).getD [], isInnerChar c = true := by
    have hinner := p.default_inner
    cases hdefault : p.default? with
    | none => exact List.forall_mem_nil _
    | some default =>
        rw [hdefault] at hinner
        exact List.forall_mem_cons.mpr ⟨rfl, hinner⟩
  simp only [text, core, List.forall_mem_append]
  exact ⟨hblank, ⟨hword p.type_name, hmark, hword p.name_name,
    fun c hc => (p.trailing_inner c hc).1⟩, hdefault⟩

end Parameter

/-- The list of parameters becomes the list of their names, in the same order. -/
theorem untypedParams_join (parameters : List Parameter) :
    untypedParams (Text.join [','] (parameters.map Parameter.text)) =
      Text.join [',', ' '] (parameters.map Parameter.name) := by
  cases parameters with
  | nil =>
      have hone : ([[]] : List (List Char)) ≠ [] := List.cons_ne_nil _ _
      have hcut : Text.cut [','] [] = [[]] := Text.cut_join hone (by simp)
      change Text.join [',', ' '] ((Text.cut [','] []).filterMap untypedParam?) = []
      rw [hcut]
      rfl
  | cons p others =>
      have hcommas : ∀ piece ∈ (p :: others).map Parameter.text, ',' ∉ piece := by
        intro piece hpiece
        obtain ⟨q, -, rfl⟩ := List.mem_map.mp hpiece
        intro hcomma
        cases q.isInnerChar_text _ hcomma
      rw [untypedParams, Text.cut_join (by simp) hcommas, List.filterMap_map]
      refine congrArg (Text.join _) ?_
      rw [← List.filterMap_eq_map]
      exact congrArg (List.filterMap · _) (funext fun q => q.untypedParam_text)

end StepTrace.Lowering
