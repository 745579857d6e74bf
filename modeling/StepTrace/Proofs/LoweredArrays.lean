import StepTrace.Proofs.ArrayDeclarations
import StepTrace.Proofs.UntouchedText

/-!
# Lowering array declarations

Three rules matter to the declaration of an array with initial values in Java. The braces of the
values become brackets, since the values are the only text between an equality sign and a semicolon
(`apply_aggregate`). Then the type becomes `let`, since the declaration is the only text that begins
with a type and brackets (`apply_typedArray`). Every other rule leaves the three texts alone, and so
do the steps behind the passes.

* `toHost_arrayText`: the host program of the declaration.
-/

namespace StepTrace.Lowering

open Pattern

variable {word marks name value : List Char}

/-! ## Words that are not there -/

theorem isPhraseChar_of_isWordChar {c : Char} (h : Text.isWordChar c = true) :
    isPhraseChar c = true :=
  Bool.or_eq_true_iff.mpr (Or.inl h)

theorem begins_word (next : List Pattern) : Begins isPhraseChar (chain (Pattern.word :: next)) :=
  (Begins.run Nat.one_pos fun _ => isPhraseChar_of_isWordChar).seq _

theorem toList_new : "new".toList = ['n', 'e'] ++ ['w'] := by decide

/-- In a declaration with a type no creation of an array stands. -/
theorem absent_javaNew {text : List Char} (h : NoPhrase text) (next : List Pattern) :
    Absent (chain (javaNew :: next)) text := by
  refine .of_not_spells fun piece groups hpiece hspells => ?_
  cases hspells with
  | seq hnew _ =>
      obtain ⟨piece', groups', hpiece', hspells'⟩ :=
        Spells.exists_drop [edge, literal "new", space, Pattern.word, gap] 1 hnew
      refine h.not_spells toList_new rfl (begins_word _) ?_ hspells'
      exact (hpiece'.trans (List.prefix_append _ _).isInfix).trans hpiece

section Typed

variable {marks' : List Char} (h : IsDeclared word marks name value)
  (hmarks : marks = '[' :: marks')

include h hmarks

theorem apply_headers : ∀ rule ∈ javaHeaders, rule.apply (variableText word marks name value) =
    variableText word marks name value := by
  have hphrase := h.noPhrase hmarks
  have hpackage : Begins isPhraseChar (chain [.run 1 (fun c => Text.isWordChar c || c == '.'), gap,
      literal ";", gap, .anchor .lineEnd]) := by
    refine (Begins.run Nat.one_pos fun c hc => ?_).seq _
    rcases Bool.or_eq_true_iff.mp hc with hc | hc
    · exact isPhraseChar_of_isWordChar hc
    · rw [beq_iff_eq.mp hc]
      rfl
  have himport : Begins isPhraseChar (chain [optional (.seq (literal "static") space),
      .run 1 (fun c => Text.isWordChar c || oneIn ".*" c), gap, literal ";", gap,
      .anchor .lineEnd]) :=
    Begins.optional ((Begins.literal
      (show "static".toList = 's' :: "tatic".toList by decide) rfl).seq _)
      ((Begins.run Nat.one_pos fun _ hc => hc).seq _)
  have hscanner : Begins isPhraseChar (chain
      [literal "Scanner", edge, .run 0 (notIn "\n"), .anchor .lineEnd]) :=
    (Begins.literal (show "Scanner".toList = 'S' :: "canner".toList by decide) rfl).seq _
  have hannotation : (wholeLine [gap, literal "@", Pattern.word, gap]).isBlocked declarationChars =
      true := by decide +kernel
  simp only [javaHeaders, List.forall_mem_cons]
  refine ⟨?_, ?_, ?_, ?_, List.forall_mem_nil _⟩
  · exact (hphrase.absent 2 rfl
      (show "package".toList = "packag".toList ++ ['e'] by decide) rfl hpackage).replaceAll _
  · exact (hphrase.absent 2 rfl
      (show "import".toList = "impor".toList ++ ['t'] by decide) rfl himport).replaceAll _
  · exact (h.absent_of_isBlocked hannotation).replaceAll _
  · exact (hphrase.absent 3 rfl toList_new rfl hscanner).replaceAll _

/-- The only word of letters in front of a blank is the name. -/
theorem eq_name_of_blank {passed found behind : List Char} {blank : Char}
    (heq : variableText word marks name value = passed ++ (found ++ blank :: behind))
    (hbefore : ∀ c, passed.getLast? = some c → Text.isWordChar c = false)
    (hne : found ≠ []) (hfound : ∀ c ∈ found, c.isAlpha = true) (hblank : isGapChar blank = true) :
    found = name := by
  obtain ⟨front, c, hlast⟩ := (List.eq_nil_or_concat found).resolve_left hne
  have hpair : variableText word marks name value = (passed ++ front) ++ c :: blank :: behind := by
    rw [heq, hlast]
    simp
  rcases mark_behind_letter h hpair (hfound c (by simp [hlast]))
    (isMarkChar_of_isGapChar hblank) with ⟨-, hrest⟩ | ⟨hname, -⟩
  · rw [hmarks] at hrest
    rw [(List.cons.inj hrest).1] at hblank
    cases hblank
  · rw [List.append_assoc, ← List.concat_eq_append, ← hlast, ← List.append_assoc] at hname
    have hmark : ∀ c, (word ++ marks).getLast? = some c → Text.isWordChar c = false := by
      intro c hc
      rw [hmarks, List.getLast?_append_cons, ← hmarks] at hc
      exact isWordChar_of_isMarkChar (h.marks c (List.mem_of_getLast? hc)).1
    have hword : ∀ c ∈ found, Text.isWordChar c = true := fun c hc =>
      isWordChar_of_isNameHead (Bool.or_eq_true_iff.mpr (Or.inl (hfound c hc)))
    exact (append_inj_of_class_right hname h.name.isName.isWordChar hword hmark hbefore).2.symm

/-- The name is the only word in front of a blank, and it is no modifier. -/
theorem apply_modifiers : ∀ rule ∈ javaModifiers, rule.apply (variableText word marks name value) =
    variableText word marks name value := by
  have hletters : ∀ modifier ∈ modifierWords, modifier.toList ≠ [] ∧
      modifier.toList.all Char.isAlpha = true := by decide
  have habsent : Absent (chain [edge, words modifierWords, space])
      (variableText word marks name value) := by
    intro passed piece groups rest heq hoccurs
    cases hoccurs with
    | seq hedge hoccurs =>
    cases hedge with
    | anchor hedge =>
    cases hoccurs with
    | @seq _ _ _ text _ _ _ _ hwords hoccurs =>
    cases hoccurs with
    | @seq _ _ _ blanks _ _ _ _ hspace hempty =>
    cases hempty
    cases hspace with
    | run hlength hblanks =>
    obtain ⟨modifier, hmem, rfl⟩ := exists_of_spells_words hwords.spells
    obtain ⟨hne, hall⟩ := hletters modifier hmem
    have halpha := List.all_eq_true.mp hall
    obtain ⟨blank, blanks, rfl⟩ := List.exists_cons_of_length_pos hlength
    have hbefore : ∀ c, passed.getLast? = some c → Text.isWordChar c = false := by
      intro c hc
      obtain ⟨first, others, hfirst⟩ := List.exists_cons_of_ne_nil hne
      have hword : Text.isWordChar first = true := isWordChar_of_isNameHead
        (Bool.or_eq_true_iff.mpr (Or.inl (halpha first (hfirst ▸ List.mem_cons_self))))
      rw [hc, hfirst] at hedge
      have hdiffers : (Text.isWordChar c != Text.isWordChar first) = true := hedge
      rw [hword] at hdiffers
      simpa using hdiffers
    have htext : variableText word marks name value =
        passed ++ (modifier.toList ++ blank :: (blanks ++ rest)) := by
      rw [heq]
      simp
    exact h.name.plain modifier hmem (eq_name_of_blank h hmarks htext hbefore hne halpha
      (hblanks blank List.mem_cons_self)).symm
  simp only [javaModifiers, List.forall_mem_cons]
  exact ⟨habsent.replaceAll _, List.forall_mem_nil _⟩

end Typed

/-! ## Initial values -/

/-- Initial values behind an equality sign and in front of a semicolon. -/
def aggregate : Pattern :=
  chain [.group 1 (.seq (literal "=") gap), .group 2 initialValues,
    .group 3 (.seq gap (literal ";"))]

/-- What they are replaced by. -/
def bracketedValues (m : Match) : List Char :=
  m.group 1 ++ braceToBracket (m.group 2) ++ m.group 3

/-- An equality sign, blanks, a list in braces, blanks and a semicolon. -/
def aggregateText (blanks inner blanks' : List Char) : List Char :=
  ('=' :: (blanks ++ '{' :: (inner ++ '}' :: blanks'))) ++ [';']

/-- The parts of such a text. -/
structure IsAggregate (blanks inner blanks' : List Char) : Prop where
  blanks : ∀ c ∈ blanks, isGapChar c = true
  inner : ∀ c ∈ inner, isInitialChar c = true
  blanks' : ∀ c ∈ blanks', isGapChar c = true

namespace IsAggregate

variable {blanks inner blanks' blanks₁ inner₁ blanks₁' : List Char}

theorem semicolon_notMem (h : IsAggregate blanks inner blanks') :
    ∀ c ∈ '=' :: (blanks ++ '{' :: (inner ++ '}' :: blanks')), (c != ';') = true := by
  have hplain {c : Char} {test : Char → Bool} (hc : test c = true) (htest : test ';' = false) :
      (c != ';') = true := by
    refine bne_iff_ne.mpr ?_
    rintro rfl
    rw [hc] at htest
    cases htest
  refine List.forall_mem_cons.mpr ⟨rfl, List.forall_mem_append.mpr ⟨?_, List.forall_mem_cons.mpr
    ⟨rfl, List.forall_mem_append.mpr ⟨?_, List.forall_mem_cons.mpr ⟨rfl, ?_⟩⟩⟩⟩⟩
  · exact fun c hc => hplain (h.blanks c hc) rfl
  · exact fun c hc => hplain (h.inner c hc) rfl
  · exact fun c hc => hplain (h.blanks' c hc) rfl

/-- Only one such text begins at a place. -/
theorem eq_of_append {behind behind₁ : List Char} (h : IsAggregate blanks inner blanks')
    (h₁ : IsAggregate blanks₁ inner₁ blanks₁')
    (heq : aggregateText blanks inner blanks' ++ behind =
      aggregateText blanks₁ inner₁ blanks₁' ++ behind₁) :
    aggregateText blanks inner blanks' = aggregateText blanks₁ inner₁ blanks₁' := by
  rw [aggregateText, aggregateText, List.append_assoc, List.append_assoc] at heq
  have hfront := (append_inj_of_class heq h.semicolon_notMem h₁.semicolon_notMem
    (by rintro c ⟨⟩; rfl) (by rintro c ⟨⟩; rfl)).1
  exact congrArg (· ++ [';']) hfront

/-- It is read in one way. -/
theorem parts_eq (h : IsAggregate blanks inner blanks') (h₁ : IsAggregate blanks₁ inner₁ blanks₁')
    (heq : aggregateText blanks inner blanks' = aggregateText blanks₁ inner₁ blanks₁') :
    blanks = blanks₁ ∧ inner = inner₁ ∧ blanks' = blanks₁' := by
  have hfront := (List.cons.inj (List.append_cancel_right heq)).2
  obtain ⟨rfl, hlist⟩ := append_inj_of_class hfront h.blanks h₁.blanks
    (by rintro c ⟨⟩; rfl) (by rintro c ⟨⟩; rfl)
  have hlast (inner : List Char) :
      ∀ c, (inner ++ ['}']).getLast? = some c → isGapChar c = false := by
    intro c hc
    rw [List.getLast?_concat] at hc
    cases hc
    rfl
  have hbehind : (inner ++ ['}']) ++ blanks' = (inner₁ ++ ['}']) ++ blanks₁' := by
    simpa using (List.cons.inj hlist).2
  obtain ⟨hinner, rfl⟩ := append_inj_of_class_right hbehind h.blanks' h₁.blanks' (hlast inner)
    (hlast inner₁)
  exact ⟨rfl, List.append_cancel_right hinner, rfl⟩

end IsAggregate

theorem spells_aggregate {text : List Char} {groups : List (Nat × List Char)}
    (h : Spells aggregate text groups) :
    ∃ blanks inner blanks', IsAggregate blanks inner blanks' ∧
      text = aggregateText blanks inner blanks' ∧ bracketedValues ⟨text, (0, text) :: groups⟩ =
        ('=' :: blanks) ++ braceToBracket ('{' :: (inner ++ ['}'])) ++ (blanks' ++ [';']) := by
  cases h with
  | seq hequal h =>
  cases h with
  | seq hvalues h =>
  cases h with
  | seq hsemicolon h =>
  cases h
  cases hequal with
  | group hequal =>
  cases hequal with
  | seq hequal hgap =>
  cases hgap with
  | run _ hgap =>
  cases hvalues with
  | group hvalues =>
  cases hvalues with
  | seq hopen hvalues =>
  cases hvalues with
  | seq hinner hvalues =>
  cases hinner with
  | run _ hinner =>
  cases hvalues with
  | seq hclose hvalues =>
  cases hvalues
  cases hsemicolon with
  | group hsemicolon =>
  cases hsemicolon with
  | seq hgap' hsemicolon =>
  cases hgap' with
  | run _ hgap' =>
  obtain ⟨rfl, rfl⟩ := eq_of_spells_mark '=' hequal
  obtain ⟨rfl, rfl⟩ := eq_of_spells_mark '{' hopen
  obtain ⟨rfl, rfl⟩ := eq_of_spells_mark '}' hclose
  obtain ⟨rfl, rfl⟩ := eq_of_spells_mark ';' hsemicolon
  exact ⟨_, _, _, ⟨hgap, hinner, hgap'⟩, by simp [aggregateText], rfl⟩

theorem exists_spells_aggregate {blanks inner blanks' : List Char}
    (h : IsAggregate blanks inner blanks') :
    ∃ groups, Spells aggregate (aggregateText blanks inner blanks') groups := by
  have hzero (text : List Char) : 0 ≤ text.length := Nat.zero_le _
  have hopen : Spells (literal "\x7b") ['{'] [] := .seq (.char rfl) .empty
  have hclose : Spells (literal "\x7d") ['}'] [] := .seq (.char rfl) .empty
  have hequal : Spells (literal "=") ['='] [] := .seq (.char rfl) .empty
  have hsemicolon : Spells (literal ";") [';'] [] := .seq (.char rfl) .empty
  have hvalues : Spells initialValues (['{'] ++ (inner ++ (['}'] ++ []))) [] :=
    .seq hopen (.seq (.run (hzero _) h.inner) (.seq hclose .empty))
  have hwhole := Spells.seq (@Spells.group 1 _ _ _ (.seq hequal (.run (hzero _) h.blanks)))
    (.seq (@Spells.group 2 _ _ _ hvalues)
      (.seq (@Spells.group 3 _ _ _ (.seq (.run (hzero _) h.blanks') hsemicolon)) .empty))
  have htext : ['='] ++ blanks ++ (['{'] ++ (inner ++ (['}'] ++ [])) ++ (blanks' ++ [';'] ++ [])) =
      aggregateText blanks inner blanks' := by simp [aggregateText]
  rw [htext] at hwhole
  exact ⟨_, hwhole⟩

/-- The braces of the initial values become brackets. -/
theorem replaceAll_aggregate {inner : List Char} (h : IsDeclared word marks name value)
    (hvalue : value = '{' :: (inner ++ ['}'])) (hinner : ∀ c ∈ inner, isInitialChar c = true) :
    aggregate.replaceAll bracketedValues (variableText word marks name value) =
      variableText word marks name (braceToBracket value) := by
  have hparts : IsAggregate [' '] inner [] :=
    ⟨Syntax.forall_of_all rfl, hinner, List.forall_mem_nil _⟩
  obtain ⟨groups, hspells⟩ := exists_spells_aggregate hparts
  have hfree : aggregate.isAnchorFree = true := by decide
  have hequal : '=' ∉ word ++ (marks ++ (name ++ [' '])) := by
    simp only [List.mem_append, not_or]
    refine ⟨fun hmem => ?_, fun hmem => ?_, fun hmem => ?_, by decide⟩
    · cases h.word _ hmem
    · cases (h.marks _ hmem).1
    · cases h.name.isAsciiWordChar hmem
  have hnone : NoneBegins aggregate (word ++ (marks ++ (name ++ [' '])))
      (aggregateText [' '] inner [] ++ []) := by
    intro passed left hfront hleft text groups rest heq hspells
    obtain ⟨blanks, inner', blanks', -, rfl, -⟩ := spells_aggregate hspells
    obtain ⟨c, left, rfl⟩ := List.exists_cons_of_ne_nil hleft
    refine hequal ?_
    rw [hfront, (List.cons.inj heq).1]
    exact List.mem_append_right _ List.mem_cons_self
  have hwhole : variableText word marks name value =
      (word ++ (marks ++ (name ++ [' ']))) ++ (aggregateText [' '] inner [] ++ []) := by
    simp [variableText, aggregateText, hvalue]
  have honce : aggregate.replaceAll bracketedValues ((word ++ (marks ++ (name ++ [' ']))) ++
      (aggregateText [' '] inner [] ++ [])) = (word ++ (marks ++ (name ++ [' ']))) ++
        ((['=', ' '] ++ (braceToBracket value ++ [';'])) ++ []) := by
    refine replaceAll_once ?_ (hnone.noneOccurs _) (hspells.occurs hfree _ _) ?_
      (noneOccurs_nil _ _ _) ?_
    · intro previous behind groups hoccurs
      obtain ⟨blanks, inner', blanks', -, heq, -⟩ := spells_aggregate hoccurs.spells
      cases heq
    · intro text' groups' behind' heq hoccurs
      obtain ⟨blanks, inner', blanks', hparts', rfl, -⟩ := spells_aggregate hoccurs.spells
      exact (hparts.eq_of_append hparts' heq).symm
    · intro groups' hoccurs
      obtain ⟨blanks, inner', blanks', hparts', heq, hnew⟩ := spells_aggregate hoccurs.spells
      obtain ⟨rfl, rfl, rfl⟩ := hparts.parts_eq hparts' heq
      rw [hnew, hvalue]
      simp
  rw [hwhole, honce]
  simp [variableText]

/-! ## Types -/

/-- A type with brackets, a name, and an equality sign or a semicolon. -/
def typedArray : Pattern :=
  chain [edge, identifier, oneOrMore emptyBrackets, space, .group 1 identifier,
    .group 2 (.seq gap (.char (oneIn "=;")))]

/-- What they are replaced by. -/
def untypedArray : Match → List Char :=
  fill [.text "let ", .group 1, .group 2]

/-- A type, marks, a name, blanks and a sign. -/
def typedArrayText (type marks name blanks : List Char) (sign : Char) : List Char :=
  type ++ (marks ++ (name ++ (blanks ++ [sign])))

/-- The parts of such a text. -/
structure IsTypedArray (type marks name blanks : List Char) (sign : Char) : Prop where
  type : IsName type
  marks_ne : marks ≠ []
  marks : ∀ c ∈ marks, isMarkChar c = true
  name : IsName name
  blanks : ∀ c ∈ blanks, isGapChar c = true
  sign : oneIn "=;" sign = true

namespace IsTypedArray

variable {type blanks type₁ marks₁ name₁ blanks₁ : List Char} {sign sign₁ : Char}

theorem sign_plain (h : IsTypedArray type marks name blanks sign) :
    isGapChar sign = false ∧ Text.isWordChar sign = false := by
  have hall : ∀ sign ∈ ['=', ';'], isGapChar sign = false ∧ Text.isWordChar sign = false := by
    simp only [List.forall_mem_cons]
    exact ⟨⟨rfl, rfl⟩, ⟨rfl, rfl⟩, List.forall_mem_nil _⟩
  exact hall sign (List.contains_iff_mem.mp h.sign)

theorem behind_type (h : IsTypedArray type marks name blanks sign) (rest : List Char) :
    ∀ c, (marks ++ rest).head? = some c → Text.isWordChar c = false := by
  intro c hc
  rw [List.head?_append_of_ne_nil _ h.marks_ne] at hc
  exact isWordChar_of_isMarkChar (h.marks c (List.mem_of_mem_head? hc))

theorem behind_marks (h : IsTypedArray type marks name blanks sign) (rest : List Char) :
    ∀ c, (name ++ rest).head? = some c → isMarkChar c = false := by
  intro c hc
  obtain ⟨d, hd, hword⟩ := h.name.head rest
  obtain rfl := Option.some.inj (hc.symm.trans hd)
  refine Bool.eq_false_iff.mpr fun hmark => ?_
  rw [isWordChar_of_isMarkChar hmark] at hword
  cases hword

theorem behind_name (h : IsTypedArray type marks name blanks sign) (rest : List Char) :
    ∀ c, (blanks ++ sign :: rest).head? = some c → Text.isWordChar c = false :=
  head?_append (fun c hc => isWordChar_of_isGapChar (h.blanks c hc))
    (by rintro c ⟨⟩; exact h.sign_plain.2)

/-- Only one such text begins at a place, and it is read in one way. -/
theorem parts_eq {behind behind₁ : List Char} (h : IsTypedArray type marks name blanks sign)
    (h₁ : IsTypedArray type₁ marks₁ name₁ blanks₁ sign₁)
    (heq : typedArrayText type marks name blanks sign ++ behind =
      typedArrayText type₁ marks₁ name₁ blanks₁ sign₁ ++ behind₁) :
    type = type₁ ∧ marks = marks₁ ∧ name = name₁ ∧ blanks = blanks₁ ∧ sign = sign₁ := by
  have hwhole : type ++ (marks ++ (name ++ (blanks ++ sign :: behind))) =
      type₁ ++ (marks₁ ++ (name₁ ++ (blanks₁ ++ sign₁ :: behind₁))) := by
    simpa [typedArrayText] using heq
  obtain ⟨rfl, hmarks⟩ := append_inj_of_class hwhole h.type.isWordChar h₁.type.isWordChar
    (h.behind_type _) (h₁.behind_type _)
  obtain ⟨rfl, hname⟩ := append_inj_of_class hmarks h.marks h₁.marks (h.behind_marks _)
    (h₁.behind_marks _)
  obtain ⟨rfl, hblanks⟩ := append_inj_of_class hname h.name.isWordChar h₁.name.isWordChar
    (h.behind_name _) (h₁.behind_name _)
  obtain ⟨rfl, hsign⟩ := append_inj_of_class hblanks h.blanks h₁.blanks
    (by rintro c ⟨⟩; exact h.sign_plain.1) (by rintro c ⟨⟩; exact h₁.sign_plain.1)
  exact ⟨rfl, rfl, rfl, rfl, (List.cons.inj hsign).1⟩

end IsTypedArray

theorem emptyBrackets_within : emptyBrackets.Within fun c => isMarkChar c = true := by
  have hsign {d : Char} (hd : isMarkChar d = true) : ∀ c, (c == d) = true → isMarkChar c = true :=
    fun c hc => beq_iff_eq.mp hc ▸ hd
  have hgap : ∀ c, oneIn " \t" c = true → isMarkChar c = true :=
    fun c hc => isMarkChar_of_isGapChar hc
  exact ⟨hgap, ⟨hsign rfl, trivial⟩, hgap, ⟨hsign rfl, trivial⟩, trivial⟩

theorem toList_let : "let ".toList = ['l', 'e', 't', ' '] := by decide

theorem spells_typedArray {text : List Char} {groups : List (Nat × List Char)}
    (h : Spells typedArray text groups) :
    ∃ type marks name blanks sign, IsTypedArray type marks name blanks sign ∧
      text = typedArrayText type marks name blanks sign ∧
      untypedArray ⟨text, (0, text) :: groups⟩ =
        ['l', 'e', 't', ' '] ++ (name ++ (blanks ++ [sign])) := by
  cases h with
  | seq hedge h =>
  cases hedge
  cases h with
  | seq htype h =>
  cases h with
  | seq hbrackets h =>
  cases h with
  | seq hspace h =>
  cases h with
  | seq hname h =>
  cases h with
  | seq hsign h =>
  cases h
  cases hname with
  | group hname =>
  cases hsign with
  | group hsign =>
  cases hsign with
  | seq hblanks hsign =>
  cases hblanks with
  | run _ hblanks =>
  cases hsign with
  | char hsign =>
  have hmarks := hbrackets.within (p := fun c => isMarkChar c = true)
    ⟨emptyBrackets_within, emptyBrackets_within⟩
  cases hspace with
  | run hlength hspace =>
  refine ⟨_, _, _, _, _, ⟨(spells_identifier_iff.mp htype).1, ?_, List.forall_mem_append.mpr
    ⟨hmarks, fun c hc => isMarkChar_of_isGapChar (hspace c hc)⟩, (spells_identifier_iff.mp hname).1,
    hblanks, hsign⟩, ?_, ?_⟩
  · exact fun hnil => by rw [(List.append_eq_nil_iff.mp hnil).2] at hlength; cases hlength
  · simp [typedArrayText]
  · simp [untypedArray, fill, Match.group, Match.group?, List.lookup_cons, toList_let]

theorem spells_emptyBrackets : Spells emptyBrackets ['[', ']'] [] := by
  have hgap : Spells gap [] [] := .run (Nat.zero_le _) (List.forall_mem_nil _)
  have hopen : Spells (literal "[") ['['] [] := .seq (.char rfl) .empty
  have hclose : Spells (literal "]") [']'] [] := .seq (.char rfl) .empty
  exact .seq hgap (.seq hopen (.seq hgap (.seq hclose .empty)))

theorem spells_bracketPairs (depth : Nat) :
    Spells (.many emptyBrackets) (bracketPairs depth) [] := by
  induction depth with
  | zero => exact .manyNone
  | succ depth ih => exact .manyMore spells_emptyBrackets ih

theorem exists_spells_typedArray {type blanks : List Char} {sign : Char} (depth : Nat)
    (h : IsTypedArray type (bracketPairs (depth + 1) ++ [' ']) name blanks sign) :
    ∃ groups, Spells (chain [identifier, oneOrMore emptyBrackets, space, .group 1 identifier,
        .group 2 (.seq gap (.char (oneIn "=;")))])
      (typedArrayText type (bracketPairs (depth + 1) ++ [' ']) name blanks sign) groups := by
  have hbrackets : Spells (oneOrMore emptyBrackets) (bracketPairs (depth + 1)) [] :=
    .seq spells_emptyBrackets (spells_bracketPairs depth)
  have hspace : Spells space [' '] [] := .run (Nat.le_refl _) (Syntax.forall_of_all rfl)
  have hgap : Spells gap blanks [] := .run (Nat.zero_le _) h.blanks
  have hwhole := Spells.seq (spells_identifier_iff.mpr ⟨h.type, rfl⟩) (.seq hbrackets (.seq hspace
    (.seq (@Spells.group 1 _ _ _ (spells_identifier_iff.mpr ⟨h.name, rfl⟩))
      (.seq (@Spells.group 2 _ _ _ (.seq hgap (.char h.sign))) .empty))))
  have htext : type ++ (bracketPairs (depth + 1) ++ ([' '] ++ (name ++ (blanks ++ [sign] ++ [])))) =
      typedArrayText type (bracketPairs (depth + 1) ++ [' ']) name blanks sign := by
    simp [typedArrayText]
  rw [htext] at hwhole
  exact ⟨_, hwhole⟩

/-- The characters of declarations with which no name begins. -/
def noHeadChars : List Char :=
  declarationChars.filter fun c => ! isNameHead c

theorem mem_noHeadChars {c : Char} (h : isValueChar c = true) : c ∈ noHeadChars := by
  refine List.mem_filter.mpr ⟨mem_declarationChars (isDeclarationChar_of_isValueChar h), ?_⟩
  have hline : c ≠ '_' := by
    rintro rfl
    cases h
  simp [isNameHead, isAlpha_of_isValueChar h, hline]

/-- At the front of a text the pattern occurs where a type with brackets stands. -/
theorem exists_occurs_typedArray {type blanks : List Char} {sign : Char} {depth : Nat}
    (h : IsTypedArray type (bracketPairs (depth + 1) ++ [' ']) name blanks sign)
    (behind : List Char) : ∃ groups, Occurs typedArray none
      (typedArrayText type (bracketPairs (depth + 1) ++ [' ']) name blanks sign) behind groups := by
  obtain ⟨groups, hspells⟩ := exists_spells_typedArray depth h
  have hword : (typedArrayText type (bracketPairs (depth + 1) ++ [' ']) name blanks
      sign).head?.any Text.isWordChar = true := by
    obtain ⟨c, hhead, hc⟩ := h.type.head
      ((bracketPairs (depth + 1) ++ [' ']) ++ (name ++ (blanks ++ [sign])))
    rw [typedArrayText, hhead]
    exact hc
  exact ⟨groups, hspells.occurs_behind_edge rfl rfl hword behind⟩

/-- The type becomes `let`. -/
theorem replaceAll_typedArray {depth : Nat}
    (h : IsDeclared word (bracketPairs (depth + 1) ++ [' ']) name value) (hword : IsName word) :
    typedArray.replaceAll untypedArray
        (variableText word (bracketPairs (depth + 1) ++ [' ']) name value) =
      variableText ['l', 'e', 't'] [' '] name value := by
  have hparts : IsTypedArray word (bracketPairs (depth + 1) ++ [' ']) name [' '] '=' :=
    ⟨hword, by simp, fun c hc => (marks_bracketPairs _ c hc).1, h.name.isName,
      Syntax.forall_of_all rfl, rfl⟩
  obtain ⟨groups, hoccurs⟩ := exists_occurs_typedArray hparts (' ' :: (value ++ [';']))
  have hbehind : ∀ c ∈ ' ' :: (value ++ [';']), c ∈ noHeadChars := by
    refine List.forall_mem_cons.mpr ⟨mem_noHeadChars rfl, List.forall_mem_append.mpr
      ⟨fun c hc => mem_noHeadChars (h.value c hc), List.forall_mem_singleton.mpr ?_⟩⟩
    exact List.mem_filter.mpr ⟨mem_declarationChars rfl, rfl⟩
  have hblocked : typedArray.isBlocked noHeadChars = true := by decide +kernel
  have hwhole : variableText word (bracketPairs (depth + 1) ++ [' ']) name value =
      [] ++ (typedArrayText word (bracketPairs (depth + 1) ++ [' ']) name [' '] '=' ++
        ' ' :: (value ++ [';'])) := by
    simp [variableText, typedArrayText]
  have honce : typedArray.replaceAll untypedArray
      ([] ++ (typedArrayText word (bracketPairs (depth + 1) ++ [' ']) name [' '] '=' ++
        ' ' :: (value ++ [';']))) =
      [] ++ (['l', 'e', 't', ' '] ++ (name ++ [' ', '=']) ++ ' ' :: (value ++ [';'])) := by
    refine replaceAll_once ?_ (noneOccurs_nil _ _ _) hoccurs ?_
      (.of_isBlocked hblocked hbehind _) ?_
    · intro previous behind groups hoccurs
      obtain ⟨type, marks, name, blanks, sign, hparts, heq, -⟩ := spells_typedArray hoccurs.spells
      simp [typedArrayText] at heq
    · intro text' groups' behind' heq hoccurs
      obtain ⟨type, marks, name, blanks, sign, hparts', rfl, -⟩ :=
        spells_typedArray hoccurs.spells
      obtain ⟨rfl, rfl, rfl, rfl, rfl⟩ := hparts.parts_eq hparts' heq
      rfl
    · intro groups' hoccurs
      obtain ⟨type, marks, name', blanks, sign, hparts', heq, hnew⟩ :=
        spells_typedArray hoccurs.spells
      obtain ⟨-, -, rfl, rfl, rfl⟩ := hparts.parts_eq hparts' (congrArg (· ++ []) heq)
      exact hnew
  rw [hwhole, honce]
  simp [variableText]

/-! ## The other passes -/

/-- A typed local variable is a type, marks and the beginning of a name. -/
theorem exists_of_spells_typedLocal {text : List Char} {groups : List (Nat × List Char)}
    (h : Spells typedLocal text groups) : ∃ type ∈ localTypes, ∃ mark mid c others,
      type.toList ++ mark :: (mid ++ c :: others) <:+: text ∧ isMarkChar mark = true ∧
        (∀ c ∈ mid, isMarkChar c = true) ∧ isNameHead c = true := by
  obtain ⟨piece, groups, hinfix, hspells⟩ := Spells.exists_drop [edge,
    .many (.seq (words ["unsigned", "signed", "long", "short"]) space), words localTypes, edge,
    .many emptyBrackets, gap, .run 0 (oneIn "*&"), space, .group 1 identifier] 2 h
  cases hspells with
  | seq htype hspells =>
  cases hspells with
  | seq hedge hspells =>
  cases hedge
  cases hspells with
  | @seq _ _ brackets _ _ _ hbrackets hspells =>
  cases hspells with
  | @seq _ _ gap _ _ _ hgap hspells =>
  cases hspells with
  | @seq _ _ sigils _ _ _ hsigils hspells =>
  cases hspells with
  | @seq _ _ blanks _ _ _ hspace hspells =>
  cases hspells with
  | seq hname hspells =>
  cases hspells
  cases hname with
  | group hname =>
  cases hgap with
  | run _ hgap =>
  cases hsigils with
  | run _ hsigils =>
  cases hspace with
  | run hlength hspace =>
  obtain ⟨type, hmem, rfl⟩ := exists_of_spells_words htype
  obtain ⟨⟨c, others, rfl, hc, -⟩, -⟩ := spells_identifier_iff.mp hname
  have hne : brackets ++ (gap ++ (sigils ++ blanks)) ≠ [] := by
    have hblanks : blanks ≠ [] := List.length_pos_iff.mp hlength
    simp [hblanks]
  have hmarks : ∀ c ∈ brackets ++ (gap ++ (sigils ++ blanks)), isMarkChar c = true := by
    refine List.forall_mem_append.mpr ⟨hbrackets.within emptyBrackets_within,
      List.forall_mem_append.mpr ⟨?_, List.forall_mem_append.mpr ⟨?_, ?_⟩⟩⟩
    · exact fun c hc => isMarkChar_of_isGapChar (hgap c hc)
    · exact fun c hc => isMarkChar_of_sigil (hsigils c hc)
    · exact fun c hc => isMarkChar_of_isGapChar (hspace c hc)
  obtain ⟨mark, mid, hmid⟩ := List.exists_cons_of_ne_nil hne
  rw [hmid] at hmarks
  obtain ⟨hmark, hmarks⟩ := List.forall_mem_cons.mp hmarks
  refine ⟨type, hmem, mark, mid, c, others, ?_, hmark, hmarks, hc⟩
  have hpiece : type.toList ++ mark :: (mid ++ c :: others) = type.toList ++
      ([] ++ (brackets ++ (gap ++ (sigils ++ (blanks ++ (c :: others ++ [])))))) := by
    rw [← List.cons_append, ← hmid]
    simp
  rwa [hpiece]

/-- No type of a local variable stands in front of a name any more. -/
theorem absent_typedLocal (h : IsDeclared ['l', 'e', 't'] [' '] name value) :
    Absent typedLocal (variableText ['l', 'e', 't'] [' '] name value) := by
  have htypes : ∀ type ∈ localTypes, type.toList.getLast?.any Char.isAlpha = true ∧
      ¬ type.toList <:+ ['l', 'e', 't'] := by decide
  refine .of_not_spells fun piece groups hpiece hspells => ?_
  obtain ⟨type, hmem, mark, mid, c, others, hinfix, hmark, hmarks, hc⟩ :=
    exists_of_spells_typedLocal hspells
  obtain ⟨before, after, hwhole⟩ := hinfix.trans hpiece
  obtain ⟨hletter, hnot⟩ := htypes type hmem
  obtain ⟨letter, hlast, halpha⟩ := (Option.any_eq_true _ _).mp hletter
  obtain ⟨front, hfront⟩ := List.getLast?_eq_some_iff.mp hlast
  have hpair : variableText ['l', 'e', 't'] [' '] name value =
      (before ++ front) ++ letter :: mark :: (mid ++ c :: (others ++ after)) := by
    rw [← hwhole, hfront]
    simp
  rcases mark_behind_letter h hpair halpha hmark with ⟨hword, -⟩ | ⟨-, hrest⟩
  · refine hnot ⟨before, ?_⟩
    rw [hword, hfront, List.append_assoc]
  · -- behind the name an equality sign comes, which is neither a mark nor a letter
    have hequal : mid ++ c :: (others ++ after) = '=' :: (' ' :: (value ++ [';'])) :=
      (List.cons.inj hrest).2
    cases mid with
    | nil =>
        rw [(List.cons.inj hequal).1] at hc
        cases hc
    | cons mark' mid =>
        have hmark' := hmarks mark' List.mem_cons_self
        rw [(List.cons.inj hequal).1] at hmark'
        cases hmark'

/-- Rules that ask for a character which no declaration of an array has. -/
def foreignRules : List Rule :=
  genericRules ++ (javaAllocations.drop 4 ++ (signatureRule :: (declarationRules.take 1 ++
    (javaCalls ++ cleanupRules))))

theorem isBlocked_foreignRules : ∀ rule ∈ foreignRules,
    rule.pattern.isBlocked declarationChars = true := by
  decide +kernel

/-- They leave a declaration as it is. -/
theorem apply_foreignRules {rules : List Rule} (h : IsDeclared word marks name value)
    (hrules : ∀ rule ∈ rules, rule ∈ foreignRules) :
    ∀ rule ∈ rules, rule.apply (variableText word marks name value) =
      variableText word marks name value :=
  fun rule hrule =>
    (h.absent_of_isBlocked (isBlocked_foreignRules rule (hrules rule hrule))).replaceAll _

theorem initializerRules_eq : initializerRules =
    ⟨"aggregate-initializer", aggregate, bracketedValues⟩ :: initializerRules.drop 1 :=
  rfl

theorem javaAllocations_eq : javaAllocations = javaAllocations.take 3 ++
    ⟨"typed-array-local", typedArray, untypedArray⟩ :: javaAllocations.drop 4 :=
  rfl

theorem javaPasses_eq : java.passes = java.passes.take 3 ++
    ⟨.initializers, initializerRules, false⟩ :: ⟨.allocations, javaAllocations, false⟩ ::
      java.passes.drop 5 :=
  rfl

/-- No rule asks for a creation of an array where none is. -/
theorem apply_creations {marks' : List Char} (h : IsDeclared word marks name value)
    (hmarks : marks = '[' :: marks') :
    ∀ rule ∈ initializerRules.drop 1 ++ javaAllocations.take 3,
      rule.apply (variableText word marks name value) = variableText word marks name value := by
  have hphrase := h.noPhrase hmarks
  change ∀ rule ∈ [_, _, _, _], _
  simp only [List.forall_mem_cons]
  refine ⟨?_, ?_, ?_, ?_, List.forall_mem_nil _⟩
  · exact (hphrase.absent 1 rfl toList_new rfl (begins_word _)).replaceAll _
  · exact (hphrase.absent 9 rfl toList_new rfl (begins_word _)).replaceAll _
  · exact (absent_javaNew hphrase _).replaceAll _
  · exact (absent_javaNew hphrase _).replaceAll _

/-! ## Host programs -/

section Host

variable {tree : NumberTree} {text : List Char}

theorem isDeclared_array (depth : Nat) (hname : IsVariable name)
    (hvalue : ∀ c ∈ value, isValueChar c = true) :
    IsDeclared ['i', 'n', 't'] (bracketPairs depth ++ [' ']) name value where
  word := Syntax.forall_of_all rfl
  marks := marks_bracketPairs depth
  name := hname
  value := hvalue

theorem isDeclared_let (hname : IsVariable name) (hvalue : ∀ c ∈ value, isValueChar c = true) :
    IsDeclared ['l', 'e', 't'] [' '] name value where
  word := Syntax.forall_of_all rfl
  marks := Syntax.forall_of_all rfl
  name := hname
  value := hvalue

/-- The braces of the values become brackets. -/
theorem run_initializers {depth : Nat}
    (hbraces : IsDeclared ['i', 'n', 't'] (bracketPairs (depth + 1) ++ [' ']) name text)
    (hbrackets : IsDeclared ['i', 'n', 't'] (bracketPairs (depth + 1) ++ [' ']) name
      (braceToBracket text))
    (h : Prints '{' '}' tree text) (hdepth : 1 ≤ tree.depth) :
    (⟨.initializers, initializerRules, false⟩ : Pass).run (arrayText (depth + 1) name text) =
      arrayText (depth + 1) name (braceToBracket text) := by
  obtain ⟨inner, htext, hinner⟩ := h.exists_inner hdepth
  rw [Pass.run_foldl, initializerRules_eq, List.foldl_cons, Rule.apply, arrayText,
    replaceAll_aggregate hbraces htext fun c hc => isInitialChar_of_isTreeChar (hinner c hc)]
  exact foldl_of_rules fun rule hrule =>
    apply_creations hbrackets rfl rule (List.mem_append_left _ hrule)

/-- The type becomes `let`, and no other rule for allocations matters. -/
theorem run_allocations {depth : Nat}
    (htyped : IsDeclared ['i', 'n', 't'] (bracketPairs (depth + 1) ++ [' ']) name value)
    (huntyped : IsDeclared ['l', 'e', 't'] [' '] name value) :
    (⟨.allocations, javaAllocations, false⟩ : Pass).run (arrayText (depth + 1) name value) =
      variableText ['l', 'e', 't'] [' '] name value := by
  have hcreations := foldl_of_rules fun rule hrule =>
    apply_creations htyped rfl rule (List.mem_append_right _ hrule)
  rw [Pass.run_foldl, javaAllocations_eq, List.foldl_append, arrayText, hcreations,
    List.foldl_cons, Rule.apply,
    replaceAll_typedArray htyped ⟨'i', ['n', 't'], rfl, rfl, Syntax.forall_of_all rfl⟩]
  exact foldl_of_rules (apply_foreignRules huntyped fun rule hrule => by simp [foreignRules, hrule])

/-- The passes before those for initial values leave a typed declaration as it is. -/
theorem run_passes_before {marks' : List Char} (h : IsDeclared word marks name value)
    (hmarks : marks = '[' :: marks') : ∀ pass ∈ java.passes.take 3,
      pass.run (variableText word marks name value) = variableText word marks name value := by
  change ∀ pass ∈ ([_, _, _] : List Pass), _
  simp only [List.forall_mem_cons]
  exact ⟨Pass.run_of_rules (apply_headers h hmarks),
    Pass.run_of_rules (apply_modifiers h hmarks),
    Pass.run_of_rules (apply_foreignRules h fun rule hrule => by simp [foreignRules, hrule]),
    List.forall_mem_nil _⟩

/-- The passes behind those for allocations leave an untyped declaration as it is. -/
theorem run_passes_behind (h : IsDeclared ['l', 'e', 't'] [' '] name value) :
    ∀ pass ∈ java.passes.drop 5, pass.run (variableText ['l', 'e', 't'] [' '] name value) =
      variableText ['l', 'e', 't'] [' '] name value := by
  have hdeclarations : ∀ rule ∈ declarationRules,
      rule.apply (variableText ['l', 'e', 't'] [' '] name value) =
        variableText ['l', 'e', 't'] [' '] name value := by
    have hcast : ∀ rule ∈ declarationRules.take 1, rule ∈ foreignRules := fun rule hrule => by
      simp [foreignRules, hrule]
    simp only [declarationRules, List.forall_mem_cons]
    exact ⟨apply_foreignRules h hcast _ List.mem_cons_self,
      (absent_typedLocal h).replaceAll _, List.forall_mem_nil _⟩
  have hsignature : ∀ rule ∈ [signatureRule], rule ∈ foreignRules :=
    List.forall_mem_singleton.mpr (by simp [foreignRules])
  change ∀ pass ∈ ([_, _, _, _] : List Pass), _
  simp only [List.forall_mem_cons]
  exact ⟨Pass.run_of_rules (apply_foreignRules h hsignature),
    Pass.run_of_rules hdeclarations,
    Pass.run_of_rules (apply_foreignRules h fun rule hrule => by simp [foreignRules, hrule]),
    Pass.run_of_rules (apply_foreignRules h fun rule hrule => by simp [foreignRules, hrule]),
    List.forall_mem_nil _⟩

/-- The passes exchange the marks of the values and then the type. -/
theorem rewritten_arrayText (depth : Nat) (hname : IsVariable name) (h : Prints '{' '}' tree text)
    (hdepth : 1 ≤ tree.depth) : java.rewritten (arrayText (depth + 1) name text) =
      variableText ['l', 'e', 't'] [' '] name (braceToBracket text) := by
  have hbraces := isDeclared_array (depth + 1) hname fun c hc =>
    isValueChar_of_isTreeChar (h.isTreeChar c hc) (Or.inl ⟨rfl, rfl⟩)
  have hvalue : ∀ c ∈ braceToBracket text, isValueChar c = true := fun c hc =>
    isValueChar_of_isTreeChar (h.braceToBracket.isTreeChar c hc) (Or.inr ⟨rfl, rfl⟩)
  have hbrackets := isDeclared_array (depth + 1) hname hvalue
  have huntyped := isDeclared_let hname hvalue
  have hfirst : ∀ pass ∈ java.passes.take 3,
      pass.run (arrayText (depth + 1) name text) = arrayText (depth + 1) name text :=
    run_passes_before hbraces rfl
  rw [Ruleset.rewritten, javaPasses_eq, List.foldl_append, foldl_of_passes hfirst, List.foldl_cons,
    List.foldl_cons, run_initializers hbraces hbrackets h hdepth,
    run_allocations hbrackets huntyped, foldl_of_passes (run_passes_behind huntyped)]

theorem isBlocked_declares : (declares "main").isBlocked declarationChars = true := by
  decide +kernel

/-- The host program declares the name with the same tree between brackets. -/
theorem toHost_arrayText (depth : Nat) (hname : IsVariable name) (h : Prints '{' '}' tree text)
    (hdepth : 1 ≤ tree.depth) :
    (toHost (String.ofList (arrayText (depth + 1) name text)) .java).source =
      String.ofList (variableText ['l', 'e', 't'] [' '] name (braceToBracket text)) := by
  have hvalue : ∀ c ∈ braceToBracket text, isTreeChar '[' ']' c = true :=
    h.braceToBracket.isTreeChar
  have hdeclared := isDeclared_let hname fun c hc =>
    isValueChar_of_isTreeChar (hvalue c hc) (Or.inr ⟨rfl, rfl⟩)
  have hbrace : '}' ∉ variableText ['l', 'e', 't'] [' '] name (braceToBracket text) := by
    simp only [variableText, List.mem_append, not_or]
    refine ⟨by decide, by decide, fun hmem => ?_, by decide, fun hmem => ?_, by decide⟩
    · cases hname.isAsciiWordChar hmem
    · cases hvalue _ hmem
  have hlowered : java.lowered (arrayText (depth + 1) name text) =
      variableText ['l', 'e', 't'] [' '] name (braceToBracket text) := by
    rw [Ruleset.lowered, rewritten_arrayText depth hname h hdepth, unwrapClass_eq_self hbrace,
      ite_self]
  have hentry : callEntry "main" (variableText ['l', 'e', 't'] [' '] name (braceToBracket text)) =
      variableText ['l', 'e', 't'] [' '] name (braceToBracket text) := by
    rw [callEntry, (hdeclared.absent_of_isBlocked isBlocked_declares).occursIn]
    rfl
  have hrun : java.run (arrayText (depth + 1) name text) =
      variableText ['l', 'e', 't'] [' '] name (braceToBracket text) := by
    have hmain : java.entryFunction = some "main" := rfl
    rw [java.run_eq, hmain, hlowered]
    exact hentry
  rw [toHost, ruleset?, String.toList_ofList]
  exact congrArg String.ofList hrun

end Host

end StepTrace.Lowering
