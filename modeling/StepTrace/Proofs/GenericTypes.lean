import StepTrace.Lowering.Host
import StepTrace.Proofs.LiteralSearch
import StepTrace.Proofs.Numerals

/-!
# One round over generic types

A match of `innermostGeneric` is a name, blanks, and brackets around characters that are no
brackets. A round of the pass for generic types keeps the name and removes the rest, for all
matches of the text from the left to the right.

`GenericText` is a text whose angle brackets all belong to generic types, as a tree.
`apply_render` says what a round does to it: it removes the brackets that have no others between
them, and so the tree gets lower by one (`depth_strip`).

The round is followed along the text. Between two matches stand closing brackets of types around
the first match, and then opening brackets of types around the second one: no opening bracket
stands in front of a closing one there (`Unpaired`), or there would be a match.
-/

namespace StepTrace.Lowering

open Pattern

/-! ## Characters -/

/-- The text is a name of a typed language. -/
def IsName (text : List Char) : Prop :=
  ∃ c rest, text = c :: rest ∧ isNameHead c = true ∧ ∀ d ∈ rest, Text.isWordChar d = true

/-- A blank or a tab. -/
def isGapChar : Char → Bool :=
  oneIn " \t"

/-- A character that may stand between the brackets of an innermost generic type. -/
def isArgumentChar (c : Char) : Bool :=
  Text.isWordChar c || oneIn " \t,?.[]*" c

/-- A character that is no angle bracket. -/
def isPlainChar (c : Char) : Bool :=
  c != '<' && c != '>'

theorem isWordChar_of_isNameHead {c : Char} (h : isNameHead c = true) :
    Text.isWordChar c = true := by
  rcases Bool.or_eq_true_iff.mp h with h | h
  · have halpha := Syntax.isAlpha_iff.mp h
    rw [Text.isWordChar_of_ascii (by omega)]
    exact Bool.or_eq_true_iff.mpr (Or.inl (Syntax.isAlphanum_iff.mpr (by omega)))
  · rw [beq_iff_eq.mp h]
    rfl

theorem IsName.isWordChar {name : List Char} (h : IsName name) :
    ∀ c ∈ name, Text.isWordChar c = true := by
  obtain ⟨c, rest, rfl, hc, hrest⟩ := h
  exact List.forall_mem_cons.mpr ⟨isWordChar_of_isNameHead hc, hrest⟩

theorem isWordChar_of_isGapChar {c : Char} (h : isGapChar c = true) :
    Text.isWordChar c = false := by
  have hmem : c ∈ [' ', '\t'] := List.contains_iff_mem.mp h
  rcases List.mem_cons.mp hmem with rfl | hmem
  · rfl
  · rw [List.mem_singleton.mp hmem]
    rfl

/-- No class of characters in a generic type has a bracket in it. -/
theorem isPlainChar_of_isArgumentChar {c : Char} (h : isArgumentChar c = true) :
    isPlainChar c = true := by
  unfold isPlainChar
  rw [Bool.and_eq_true_iff, bne_iff_ne, bne_iff_ne]
  refine ⟨?_, ?_⟩
  · rintro rfl
    cases h
  · rintro rfl
    cases h

theorem isArgumentChar_of_isWordChar {c : Char} (h : Text.isWordChar c = true) :
    isArgumentChar c = true :=
  Bool.or_eq_true_iff.mpr (Or.inl h)

theorem isArgumentChar_of_isGapChar {c : Char} (h : isGapChar c = true) :
    isArgumentChar c = true := by
  have hmem : c ∈ [' ', '\t'] := List.contains_iff_mem.mp h
  rcases List.mem_cons.mp hmem with rfl | hmem
  · rfl
  · rw [List.mem_singleton.mp hmem]
    rfl

theorem ne_of_isPlainChar {c : Char} (h : isPlainChar c = true) : c ≠ '<' ∧ c ≠ '>' := by
  unfold isPlainChar at h
  rwa [Bool.and_eq_true_iff, bne_iff_ne, bne_iff_ne] at h

/-- A text is cut in one way only in front of the first character that is not of the class. -/
theorem append_inj_of_class {p : Char → Bool} {xs ys xs' ys' : List Char}
    (h : xs ++ ys = xs' ++ ys') (hxs : ∀ c ∈ xs, p c = true) (hxs' : ∀ c ∈ xs', p c = true)
    (hys : ∀ c, ys.head? = some c → p c = false) (hys' : ∀ c, ys'.head? = some c → p c = false) :
    xs = xs' ∧ ys = ys' := by
  induction xs generalizing xs' with
  | nil =>
      cases xs' with
      | nil => exact ⟨rfl, h⟩
      | cons c xs' =>
          have hyes := hxs' c List.mem_cons_self
          rw [List.nil_append] at h
          rw [hys c (by rw [h]; rfl)] at hyes
          cases hyes
  | cons c xs ih =>
      obtain ⟨hc, hxs⟩ := List.forall_mem_cons.mp hxs
      cases xs' with
      | nil =>
          rw [List.nil_append] at h
          rw [hys' c (by rw [← h]; rfl)] at hc
          cases hc
      | cons c' xs' =>
          obtain ⟨rfl, htail⟩ := List.cons.inj h
          obtain ⟨rfl, rfl⟩ := ih htail hxs (List.forall_mem_cons.mp hxs').2
          exact ⟨rfl, rfl⟩

/-! ## Matches -/

/-- A name with blanks, brackets and what is between them behind it, in front of other text. -/
def genericType (name gap arguments rest : List Char) : List Char :=
  name ++ (gap ++ '<' :: (arguments ++ '>' :: rest))

/-- The parts of a generic type with no further one between its brackets. -/
structure IsInnermost (name gap arguments : List Char) : Prop where
  name : IsName name
  gap : ∀ c ∈ gap, isGapChar c = true
  arguments : ∀ c ∈ arguments, isArgumentChar c = true

theorem genericType_append (name gap arguments rest rest' : List Char) :
    genericType name gap arguments (rest ++ rest') =
      genericType name gap arguments rest ++ rest' := by
  simp [genericType]

theorem spells_innermostGeneric {text : List Char} {groups : List (Nat × List Char)}
    (h : Spells innermostGeneric text groups) :
    ∃ name gap arguments, IsInnermost name gap arguments ∧
      text = genericType name gap arguments [] ∧ groups = [(1, name)] := by
  change Spells (.seq edge (.seq (.group 1 (.seq (.char isNameHead) (.run 0 Text.isWordChar)))
    (.seq (.run 0 isGapChar) (.seq (.seq (.char (· == '<')) .empty)
      (.seq (.run 0 isArgumentChar) (.seq (.seq (.char (· == '>')) .empty) .empty)))))) text
    groups at h
  cases h with
  | seq hedge h =>
  cases hedge
  cases h with
  | seq hname h =>
  cases hname with
  | group hname =>
  cases hname with
  | seq hhead htail =>
  cases hhead with
  | char hhead =>
  cases htail with
  | run _ htail =>
  cases h with
  | seq hgap h =>
  cases hgap with
  | run _ hgap =>
  cases h with
  | seq hopen h =>
  obtain ⟨rfl, rfl⟩ := eq_of_spells_mark '<' hopen
  cases h with
  | seq harguments h =>
  cases harguments with
  | run _ harguments =>
  cases h with
  | seq hclose h =>
  obtain ⟨rfl, rfl⟩ := eq_of_spells_mark '>' hclose
  cases h
  refine ⟨_, _, _, ⟨⟨_, _, rfl, hhead, htail⟩, hgap, harguments⟩, ?_, rfl⟩
  simp [genericType]

theorem exists_occurs_innermostGeneric {previous : Option Char} {name gap arguments : List Char}
    (rest : List Char) (hprevious : previous.any Text.isWordChar = false)
    (h : IsInnermost name gap arguments) : ∃ groups,
      Occurs innermostGeneric previous (genericType name gap arguments []) rest groups := by
  obtain ⟨⟨c, others, rfl, hc, hothers⟩, hgap, harguments⟩ := h
  have hname : Spells identifier (c :: others) [] :=
    .seq (.char hc) (.run (Nat.zero_le _) hothers)
  have hopen : Spells (literal "<") ['<'] [] := .seq (.char rfl) .empty
  have hclose : Spells (literal ">") ['>'] [] := .seq (.char rfl) .empty
  have hwhole := (@Spells.group 1 _ _ _ hname).seq (.seq (.run (Nat.zero_le _) hgap)
    (hopen.seq (.seq (.run (Nat.zero_le _) harguments) (hclose.seq .empty))))
  exact ⟨_, hwhole.occurs_behind_edge rfl hprevious (isWordChar_of_isNameHead hc) rest⟩

/-- A generic type without a further one between its brackets is read in one way only. -/
theorem genericType_inj {name gap arguments rest name' gap' arguments' rest' : List Char}
    (h : IsInnermost name gap arguments) (h' : IsInnermost name' gap' arguments')
    (heq : genericType name gap arguments rest = genericType name' gap' arguments' rest') :
    name = name' ∧ gap = gap' ∧ arguments = arguments' ∧ rest = rest' := by
  have hbehindName {gap behind : List Char} (hgap : ∀ c ∈ gap, isGapChar c = true) :
      ∀ c, (gap ++ '<' :: behind).head? = some c → Text.isWordChar c = false := by
    intro c hc
    cases gap with
    | nil =>
        cases hc
        rfl
    | cons d gap =>
        cases hc
        exact isWordChar_of_isGapChar (hgap c List.mem_cons_self)
  obtain ⟨rfl, hgaps⟩ := append_inj_of_class heq h.name.isWordChar h'.name.isWordChar
    (hbehindName h.gap) (hbehindName h'.gap)
  obtain ⟨rfl, hbehind⟩ := append_inj_of_class hgaps h.gap h'.gap (by rintro c ⟨⟩; rfl)
    (by rintro c ⟨⟩; rfl)
  obtain ⟨rfl, hclose⟩ := append_inj_of_class (List.cons.inj hbehind).2 h.arguments h'.arguments
    (by rintro c ⟨⟩; rfl) (by rintro c ⟨⟩; rfl)
  obtain rfl := (List.cons.inj hclose).2
  exact ⟨rfl, rfl, rfl, rfl⟩

/-! ## Text between matches -/

/-- In the text no opening bracket stands in front of a closing one. -/
def Unpaired (text : List Char) : Prop :=
  ∃ front back, text = front ++ back ∧ '<' ∉ front ∧ '>' ∉ back

namespace Unpaired

variable {text front back : List Char}

theorem of_append_right (h : Unpaired (front ++ back)) : Unpaired back := by
  obtain ⟨closing, opening, heq, hclosing, hopening⟩ := h
  rcases List.append_eq_append_iff.mp heq with ⟨more, hmore, rfl⟩ | ⟨more, rfl, hmore⟩
  · refine ⟨more, opening, rfl, ?_, hopening⟩
    exact fun hmem => hclosing (hmore ▸ List.mem_append_right _ hmem)
  · refine ⟨[], back, rfl, List.not_mem_nil, ?_⟩
    exact fun hmem => hopening (hmore ▸ List.mem_append_right _ hmem)

theorem append (h : Unpaired text) (hback : '>' ∉ back) : Unpaired (text ++ back) := by
  obtain ⟨closing, opening, rfl, hclosing, hopening⟩ := h
  refine ⟨closing, opening ++ back, List.append_assoc _ _ _, hclosing, ?_⟩
  exact fun hmem => (List.mem_append.mp hmem).elim hopening hback

theorem of_not_mem (h : '<' ∉ text) : Unpaired text :=
  ⟨text, [], (List.append_nil _).symm, h, List.not_mem_nil⟩

/-- Behind an opening bracket no closing one follows. -/
theorem not_mem_behind (h : Unpaired (front ++ '<' :: back)) : '>' ∉ back := by
  obtain ⟨closing, opening, heq, hclosing, hopening⟩ := h
  rcases List.append_eq_append_iff.mp heq with ⟨more, hmore, hrest⟩ | ⟨more, hmore, hrest⟩
  · cases more with
    | nil =>
        have hrest : '<' :: back = opening := hrest
        exact fun hmem => hopening (hrest ▸ List.mem_cons_of_mem _ hmem)
    | cons c more =>
        have hopen : '<' ∈ closing := by
          rw [hmore]
          obtain ⟨rfl, -⟩ := List.cons.inj hrest
          simp
        exact absurd hopen hclosing
  · exact fun hmem => hopening (by rw [hrest]; simp [hmem])

end Unpaired

theorem open_notMem_of_plain {text : List Char} (h : ∀ c ∈ text, isPlainChar c = true) :
    '<' ∉ text :=
  fun hmem => (ne_of_isPlainChar (h _ hmem)).1 rfl

theorem close_notMem_of_plain {text : List Char} (h : ∀ c ∈ text, isPlainChar c = true) :
    '>' ∉ text :=
  fun hmem => (ne_of_isPlainChar (h _ hmem)).2 rfl

theorem isPlainChar_of_mem_front {name gap : List Char} (hname : IsName name)
    (hgap : ∀ c ∈ gap, isGapChar c = true) : ∀ c ∈ name ++ gap, isPlainChar c = true := by
  refine List.forall_mem_append.mpr ⟨fun c hc => ?_, fun c hc => ?_⟩
  · exact isPlainChar_of_isArgumentChar (isArgumentChar_of_isWordChar (hname.isWordChar c hc))
  · exact isPlainChar_of_isArgumentChar (isArgumentChar_of_isGapChar (hgap c hc))

theorem IsInnermost.plain_front {name gap arguments : List Char}
    (h : IsInnermost name gap arguments) : ∀ c ∈ name ++ gap, isPlainChar c = true :=
  isPlainChar_of_mem_front h.name h.gap

/-- A name behind a character that is no word character is not a part of a longer one. -/
theorem not_longer_name {name gap arguments name' gap' arguments' front : List Char} {c : Char}
    (h : IsInnermost name gap arguments) (h' : IsInnermost name' gap' arguments')
    (hc : Text.isWordChar c = false) : name' ++ gap' ≠ front ++ c :: (name ++ gap) := by
  intro heq
  -- the first character of the name is no blank
  have hnotBlank {behind : List Char} : gap' ≠ behind ++ c :: (name ++ gap) := by
    intro hgap
    obtain ⟨d, others, rfl, hd, -⟩ := h.name
    have hblank := isWordChar_of_isGapChar (h'.gap d (by rw [hgap]; simp))
    rw [isWordChar_of_isNameHead hd] at hblank
    cases hblank
  rcases List.append_eq_append_iff.mp heq with ⟨more, -, hgap⟩ | ⟨more, hname, hgap⟩
  · exact hnotBlank hgap
  · cases more with
    | nil =>
        have hgap : gap' = [] ++ c :: (name ++ gap) := hgap.symm
        exact hnotBlank hgap
    | cons d more =>
        obtain ⟨rfl, -⟩ := List.cons.inj hgap
        have hword := h'.name.isWordChar c (by rw [hname]; simp)
        rw [hc] at hword
        cases hword

theorem ne_open_of_not_mem {text : List Char} (h : '<' ∉ text) : ∀ c ∈ text, (c != '<') = true := by
  intro c hc
  rw [bne_iff_ne]
  rintro rfl
  exact h hc

/-- Behind text without a closing bracket, the next bracket that is in front of a generic type or
belongs to it is an opening one. -/
theorem ne_closed {name gap arguments rest front plain behind : List Char}
    (h : IsInnermost name gap arguments) (hfront : '>' ∉ front)
    (hplain : ∀ c ∈ plain, isPlainChar c = true) :
    plain ++ '>' :: behind ≠ front ++ genericType name gap arguments rest := by
  intro heq
  have hmem : '<' ∈ front ++ (name ++ gap) ++ ['<'] := by simp
  obtain ⟨first, others, hfirst, hnotOpen⟩ := List.eq_append_cons_of_mem hmem
  have hnotClose : '>' ∉ front ++ (name ++ gap) ++ ['<'] := by
    have hnot := close_notMem_of_plain h.plain_front
    simp only [List.mem_append, List.mem_singleton, not_or] at hnot ⊢
    exact ⟨⟨hfront, hnot⟩, by decide⟩
  have hfirstPlain : ∀ c ∈ first, isPlainChar c = true := by
    intro c hc
    unfold isPlainChar
    rw [Bool.and_eq_true_iff, bne_iff_ne, bne_iff_ne]
    refine ⟨?_, ?_⟩
    · rintro rfl
      exact hnotOpen hc
    · rintro rfl
      exact hnotClose (by rw [hfirst]; simp [hc])
  have hcut : plain ++ '>' :: behind =
      first ++ '<' :: (others ++ (arguments ++ '>' :: rest)) := by
    have hjoined := congrArg (· ++ (arguments ++ '>' :: rest)) hfirst
    rw [heq]
    simpa [genericType] using hjoined
  obtain ⟨-, habsurd⟩ := append_inj_of_class hcut hplain hfirstPlain
    (by rintro c ⟨⟩; rfl) (by rintro c ⟨⟩; rfl)
  exact absurd (List.cons.inj habsurd).1 (by decide)

/-- In a text between two matches, no match begins in front of the second one. -/
theorem noneBegins_innermostGeneric {front name gap arguments : List Char}
    {previous : Option Char} (rest : List Char) (hfront : Unpaired front)
    (hedge : (front.getLast?.or previous).any Text.isWordChar = false)
    (h : IsInnermost name gap arguments) :
    NoneBegins innermostGeneric front (genericType name gap arguments rest) := by
  rintro passed left rfl hleft text groups behind heq hspells
  obtain ⟨name', gap', arguments', h', rfl, -⟩ := spells_innermostGeneric hspells
  rw [← genericType_append, List.nil_append] at heq
  have hfirst' := ne_open_of_not_mem (open_notMem_of_plain h'.plain_front)
  by_cases hmem : '<' ∈ left
  · -- the opening bracket of the match stands in front, and the next bracket is another one
    obtain ⟨first, more, rfl, hfirst⟩ := List.eq_append_cons_of_mem hmem
    have hcut : (name' ++ gap') ++ '<' :: (arguments' ++ '>' :: behind) =
        first ++ '<' :: (more ++ genericType name gap arguments rest) := by
      simpa [genericType] using heq.symm
    obtain ⟨-, hbehind⟩ := append_inj_of_class hcut hfirst' (ne_open_of_not_mem hfirst)
      (by rintro c ⟨⟩; rfl) (by rintro c ⟨⟩; rfl)
    have harguments' : ∀ c ∈ arguments', isPlainChar c = true :=
      fun c hc => isPlainChar_of_isArgumentChar (h'.arguments c hc)
    exact ne_closed h hfront.of_append_right.not_mem_behind harguments' (List.cons.inj hbehind).2
  · -- it is the one of the type, and the name of the match begins in front of that of the type
    have hcut : (name' ++ gap') ++ '<' :: (arguments' ++ '>' :: behind) =
        (left ++ (name ++ gap)) ++ '<' :: (arguments ++ '>' :: rest) := by
      simpa [genericType] using heq.symm
    have hfirst : ∀ c ∈ left ++ (name ++ gap), (c != '<') = true :=
      List.forall_mem_append.mpr ⟨ne_open_of_not_mem hmem,
        ne_open_of_not_mem (open_notMem_of_plain h.plain_front)⟩
    obtain ⟨hnames, -⟩ := append_inj_of_class hcut hfirst' hfirst
      (by rintro c ⟨⟩; rfl) (by rintro c ⟨⟩; rfl)
    have hlast := (List.dropLast_concat_getLast hleft).symm
    rw [List.getLast?_append, List.getLast?_eq_some_getLast hleft] at hedge
    rw [hlast, List.append_assoc] at hnames
    exact not_longer_name h h' hedge hnames

/-! ## The search for generic types -/

/-- The match of a generic type. -/
def genericMatch (name gap arguments : List Char) : Match :=
  ⟨genericType name gap arguments [], [(0, genericType name gap arguments []), (1, name)]⟩

theorem find_generic {limit : Nat} {p : Place} {front name gap arguments rest : List Char}
    (hpos : p.pos = 0) (hcaptures : p.captures = [])
    (hrest : p.rest = front ++ genericType name gap arguments rest) (hlimit : p.rest.length < limit)
    (hfront : Unpaired front)
    (hedge : (front.getLast?.or p.previous).any Text.isWordChar = false)
    (h : IsInnermost name gap arguments) :
    innermostGeneric.findFrom? limit p =
      some ⟨front, genericMatch name gap arguments, ⟨0, some '>', rest, [], []⟩⟩ := by
  have hnone := (noneBegins_innermostGeneric rest hfront hedge h).noneOccurs p.previous
  obtain ⟨groups, hgeneric⟩ := exists_occurs_innermostGeneric rest hedge h
  have hwhole (name gap arguments rest : List Char) :
      genericType name gap arguments [] ++ rest = genericType name gap arguments rest :=
    (genericType_append _ _ _ [] rest).symm
  rw [← hwhole] at hrest hnone
  obtain ⟨text, groups, behind, hoccurs, hback, hfound⟩ :=
    findFrom?_occurs hpos hcaptures hrest hlimit hnone hgeneric
  obtain ⟨name', gap', arguments', h', rfl, rfl⟩ := spells_innermostGeneric hoccurs.spells
  rw [hwhole, hwhole] at hback
  obtain ⟨rfl, rfl, rfl, rfl⟩ := genericType_inj h h' hback
  have hlast : (genericType name gap arguments []).getLast? = some '>' := by
    have heq : genericType name gap arguments [] = name ++ (gap ++ '<' :: arguments) ++ ['>'] := by
      simp [genericType]
    rw [heq, List.getLast?_concat]
  rw [hfound, hlast]
  rfl

theorem find_generic_none {limit : Nat} {p : Place} (hpos : p.pos = 0)
    (hcaptures : p.captures = []) (hrest : Unpaired p.rest) :
    innermostGeneric.findFrom? limit p = none := by
  refine findFrom?_eq_none hpos hcaptures ?_
  intro passed text groups rest heq hoccurs
  obtain ⟨name, gap, arguments, -, rfl, -⟩ := spells_innermostGeneric hoccurs.spells
  have hsplit : p.rest = (passed ++ (name ++ gap)) ++ '<' :: (arguments ++ '>' :: rest) := by
    rw [heq]
    simp [genericType]
  rw [hsplit] at hrest
  exact hrest.not_mem_behind (by simp)

/-! ## A round along the text -/

/-- Behind the character, the round makes the one text of the other. -/
inductive Stripped : Option Char → List Char → List Char → Prop
  /-- Behind the last match. -/
  | last {previous : Option Char} {text : List Char} (htext : Unpaired text) :
      Stripped previous text text
  /-- In front of a match and behind it. -/
  | next {previous : Option Char} {front name gap arguments rest result : List Char}
      (hfront : Unpaired front)
      (hedge : (front.getLast?.or previous).any Text.isWordChar = false)
      (h : IsInnermost name gap arguments) (hrest : Stripped (some '>') rest result) :
      Stripped previous (front ++ genericType name gap arguments rest) (front ++ (name ++ result))

/-- The text of cuts with the name of every match in its place. -/
def named (cuts : Cuts) : List Char :=
  cuts.found.flatMap (fun (before, m) => before ++ fill [.group 1] m) ++ cuts.tail

theorem Stripped.cutFrom {previous : Option Char} {text result : List Char}
    (h : Stripped previous text result) {left : Nat} {p : Place} {isBehind : Bool}
    (hpos : p.pos = 0) (hcaptures : p.captures = []) (hprevious : p.previous = previous)
    (hrest : p.rest = text) (hleft : text.length < left) :
    named (innermostGeneric.cutFrom left p [] isBehind) = result := by
  induction h generalizing left p isBehind with
  | last htext =>
      cases left with
      | zero => cases hleft
      | succ left =>
          rw [Pattern.cutFrom, find_generic_none hpos hcaptures (hrest ▸ htext)]
          exact hrest
  | @next previous front name gap arguments rest result hfront hedge h _ ih =>
      cases left with
      | zero => cases hleft
      | succ left =>
          have hlength := congrArg List.length hrest
          rw [← hprevious] at hedge
          rw [Pattern.cutFrom, find_generic hpos hcaptures hrest (by omega) hfront hedge h]
          have hsome : (genericMatch name gap arguments).text.isEmpty = false := by
            obtain ⟨c, others, rfl, -⟩ := h.name
            rfl
          have hbehind : rest.length < left := by
            simp only [genericType, List.length_append, List.length_cons] at hleft
            omega
          have hnamed := @ih left ⟨0, some '>', rest, [], []⟩ true rfl rfl rfl rfl hbehind
          have hfill : fill [.group 1] (genericMatch name gap arguments) = name :=
            List.append_nil name
          dsimp only
          rw [hsome, ← hnamed]
          simp [named, hfill]

/-- The round over generic types along a text. -/
theorem Stripped.apply {text result : List Char} (h : Stripped none text result) :
    (Rule.template "innermost-generic" innermostGeneric [.group 1]).apply text = result :=
  h.cutFrom rfl rfl rfl rfl (Nat.lt_succ_self _)

/-! ## Texts with generic types -/

/-- A text whose angle brackets all belong to generic types: text without brackets and generic
types, one after the other. -/
inductive GenericText where
  | done
  | plain (text : List Char) (rest : GenericText)
  | generic (name gap : List Char) (arguments rest : GenericText)

namespace GenericText

/-- The text itself. -/
def render : GenericText → List Char
  | .done => []
  | .plain text rest => text ++ rest.render
  | .generic name gap arguments rest =>
      genericType name gap arguments.render rest.render

/-- How many brackets are around one another at most. -/
def depth : GenericText → Nat
  | .done => 0
  | .plain _ rest => rest.depth
  | .generic _ _ arguments rest => max (arguments.depth + 1) rest.depth

/-- The text without the brackets between which there are no others. -/
def strip : GenericText → GenericText
  | .done => .done
  | .plain text rest => .plain text rest.strip
  | .generic name gap arguments rest =>
      if arguments.depth = 0 then .plain name rest.strip
      else .generic name gap arguments.strip rest.strip

/-- Whether a name can begin behind the text, if it can in front of it. -/
def freeBehind (text : List Char) (free : Bool) : Bool :=
  match text.getLast? with
  | none => free
  | some c => ! Text.isWordChar c

/-- Plain text has only the characters that are allowed, and between brackets only those of
arguments. A generic type has a name, which begins where one can, and blanks between the name and
the bracket. Behind a generic type no name begins at once. -/
def Proper (allowed : Char → Bool) (free : Bool) : GenericText → Prop
  | .done => True
  | .plain text rest =>
      (∀ c ∈ text, allowed c = true) ∧ rest.Proper allowed (freeBehind text free)
  | .generic name gap arguments rest =>
      free = true ∧ IsName name ∧ (∀ c ∈ gap, isGapChar c = true) ∧
        arguments.Proper isArgumentChar true ∧ rest.Proper allowed false

variable {allowed : Char → Bool} {free : Bool} {text : GenericText}

theorem isPlainChar_of_mem_render (hallowed : ∀ c, allowed c = true → isPlainChar c = true)
    (h : text.Proper allowed free) (hdepth : text.depth = 0) :
    ∀ c ∈ text.render, isPlainChar c = true := by
  induction text generalizing free with
  | done => exact List.forall_mem_nil _
  | plain chars rest ih =>
      refine List.forall_mem_append.mpr ⟨fun c hc => hallowed c (h.1 c hc), ih h.2 hdepth⟩
  | generic name gap arguments rest =>
      rw [depth] at hdepth
      omega

theorem isArgumentChar_of_mem_render (h : text.Proper isArgumentChar free)
    (hdepth : text.depth = 0) : ∀ c ∈ text.render, isArgumentChar c = true := by
  induction text generalizing free with
  | done => exact List.forall_mem_nil _
  | plain chars rest ih =>
      exact List.forall_mem_append.mpr ⟨h.1, ih h.2 hdepth⟩
  | generic name gap arguments rest =>
      rw [depth] at hdepth
      omega

theorem open_mem_render (hdepth : text.depth ≠ 0) : '<' ∈ text.render ∧ '>' ∈ text.render := by
  induction text with
  | done => exact absurd rfl hdepth
  | plain chars rest ih =>
      obtain ⟨hopen, hclose⟩ := ih hdepth
      exact ⟨List.mem_append_right _ hopen, List.mem_append_right _ hclose⟩
  | generic name gap arguments rest =>
      simp [render, genericType]

theorem depth_strip (text : GenericText) : text.strip.depth = text.depth - 1 := by
  induction text with
  | done => rfl
  | plain chars rest ih => exact ih
  | generic name gap arguments rest iharguments ihrest =>
      rw [strip, depth]
      split
      · rename_i hinner
        rw [depth, ihrest, hinner]
        omega
      · rename_i hinner
        rw [depth, iharguments, ihrest]
        omega

theorem freeBehind_name {name : List Char} (h : IsName name) (free : Bool) :
    freeBehind name free = false := by
  unfold freeBehind
  cases hlast : name.getLast? with
  | none =>
      obtain ⟨c, rest, rfl, -⟩ := h
      simp at hlast
  | some c =>
      have hword := h.isWordChar c (List.mem_of_getLast? hlast)
      simp [hword]

theorem proper_strip (hallowed : ∀ c, Text.isWordChar c = true → allowed c = true)
    (h : text.Proper allowed free) : text.strip.Proper allowed free := by
  induction text generalizing allowed free with
  | done => trivial
  | plain chars rest ih => exact ⟨h.1, ih hallowed h.2⟩
  | generic name gap arguments rest iharguments ihrest =>
      obtain ⟨hfree, hname, hgap, harguments, hrest⟩ := h
      rw [strip]
      split
      · refine ⟨fun c hc => hallowed c (hname.isWordChar c hc), ?_⟩
        rw [freeBehind_name hname]
        exact ihrest hallowed hrest
      · exact ⟨hfree, hname, hgap, iharguments (fun c => isArgumentChar_of_isWordChar) harguments,
          ihrest hallowed hrest⟩

theorem edge_freeBehind {chars front : List Char} {previous : Option Char}
    (hedge : free = true → (front.getLast?.or previous).any Text.isWordChar = false)
    (hfree : freeBehind chars free = true) :
    ((front ++ chars).getLast?.or previous).any Text.isWordChar = false := by
  unfold freeBehind at hfree
  rw [List.getLast?_append]
  cases hlast : chars.getLast? with
  | none =>
      rw [hlast] at hfree
      exact hedge hfree
  | some c =>
      rw [hlast] at hfree
      simpa using hfree

/-- Along a text with generic types a round does what `strip` says. What stands in front of it
since the last match and what follows behind it are given; if there is a match in the text, only
closing brackets can stand between it and what follows. -/
theorem stripped_render (hallowed : ∀ c, allowed c = true → isPlainChar c = true)
    (h : text.Proper allowed free) {previous : Option Char} {front back result : List Char}
    (hfront : Unpaired front)
    (hedge : free = true → (front.getLast?.or previous).any Text.isWordChar = false)
    (hplain : text.depth = 0 →
      Stripped previous (front ++ (text.render ++ back)) (front ++ (text.render ++ result)))
    (hnested : text.depth ≠ 0 → ∀ closing, '<' ∉ closing →
      Stripped (some '>') (closing ++ back) (closing ++ result)) :
    Stripped previous (front ++ (text.render ++ back))
      (front ++ (text.strip.render ++ result)) := by
  induction text generalizing allowed free previous front back result with
  | done => exact hplain rfl
  | plain chars rest ih =>
      have hcharsPlain : '>' ∉ chars :=
        close_notMem_of_plain fun c hc => hallowed c (h.1 c hc)
      have hstripped : Stripped previous ((front ++ chars) ++ (rest.render ++ back))
          ((front ++ chars) ++ (rest.strip.render ++ result)) := by
        refine ih hallowed h.2 (hfront.append hcharsPlain) (edge_freeBehind hedge) ?_ hnested
        intro hdepth
        simpa [render] using hplain hdepth
      simpa [render, strip] using hstripped
  | generic name gap arguments rest iharguments ihrest =>
      obtain ⟨hfree, hname, hgap, harguments, hrest⟩ := h
      have hnotZero : (generic name gap arguments rest).depth ≠ 0 := by
        rw [depth]
        omega
      have hnested := hnested hnotZero
      -- what follows the closing bracket of this type, from the text behind it on
      have hbehind (closing : List Char) (hclosing : '<' ∉ closing) :
          Stripped (some '>') (closing ++ (rest.render ++ back))
            (closing ++ (rest.strip.render ++ result)) := by
        refine ihrest hallowed hrest (.of_not_mem hclosing) (by simp) ?_ fun _ => hnested
        intro hdepth
        have hrestPlain : '<' ∉ rest.render :=
          open_notMem_of_plain (isPlainChar_of_mem_render hallowed hrest hdepth)
        have hboth : '<' ∉ closing ++ rest.render := by
          rw [List.mem_append, not_or]
          exact ⟨hclosing, hrestPlain⟩
        simpa using hnested _ hboth
      by_cases hinner : arguments.depth = 0
      · -- the brackets of this type go
        have hinnermost : IsInnermost name gap arguments.render :=
          ⟨hname, hgap, isArgumentChar_of_mem_render harguments hinner⟩
        have hstripped := Stripped.next hfront (hedge hfree) hinnermost
          (hbehind [] List.not_mem_nil)
        simpa [render, strip, hinner, genericType] using hstripped
      · -- they stay, and a match stands between them
        have hopening : '>' ∉ name ++ gap ++ ['<'] := by
          have hplain := close_notMem_of_plain (isPlainChar_of_mem_front hname hgap)
          rw [List.mem_append, not_or]
          exact ⟨hplain, by decide⟩
        have hlast : ((front ++ (name ++ gap ++ ['<'])).getLast?.or previous).any Text.isWordChar =
            false := by
          rw [← List.append_assoc, List.getLast?_concat]
          rfl
        have hstripped : Stripped previous
            (front ++ (name ++ gap ++ ['<']) ++ (arguments.render ++ '>' :: (rest.render ++ back)))
            (front ++ (name ++ gap ++ ['<']) ++
              (arguments.strip.render ++ '>' :: (rest.strip.render ++ result))) := by
          refine iharguments (fun c => isPlainChar_of_isArgumentChar) harguments
            (hfront.append hopening) (fun _ => hlast) (fun hdepth => absurd hdepth hinner) ?_
          intro _ closing hclosing
          have hclosed : '<' ∉ closing ++ ['>'] := by
            rw [List.mem_append, not_or]
            exact ⟨hclosing, by decide⟩
          simpa using hbehind _ hclosed
        simpa [render, strip, hinner, genericType] using hstripped

/-- What a round over generic types does to a text in which all angle brackets belong to them. -/
theorem apply_render (h : text.Proper isPlainChar true) :
    (Rule.template "innermost-generic" innermostGeneric [.group 1]).apply text.render =
      text.strip.render := by
  have hstripped : Stripped none ([] ++ (text.render ++ [])) ([] ++ (text.strip.render ++ [])) := by
    refine stripped_render (fun _ => id) h (.of_not_mem List.not_mem_nil) (fun _ => rfl) ?_ ?_
    · intro hdepth
      refine .last (.of_not_mem ?_)
      simpa using open_notMem_of_plain (isPlainChar_of_mem_render (fun _ => id) h hdepth)
    · intro _ closing hclosing
      exact .last (.of_not_mem (by simpa using hclosing))
  simp only [List.nil_append, List.append_nil] at hstripped
  exact hstripped.apply

end GenericText

end StepTrace.Lowering
