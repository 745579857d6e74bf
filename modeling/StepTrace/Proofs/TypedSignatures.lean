import StepTrace.Proofs.MatchedLines
import StepTrace.Proofs.ParameterNames

/-!
# Lines with typed signatures

A line that `typedSignature` matches is read in one way only, as far as the rule uses it
(`Reading`): no character of the indentation, of a name or of the marks between two names can
belong to the part behind it. So the rule rewrites a text line by line (`linePattern_signature`).

`Signature` has the lines with a typed signature. Such a line becomes one with an `async` function
of the same indentation, with the names of the parameters in their order (`apply_signature`), and
nothing else happens to the text around it.
-/

namespace StepTrace.Lowering

open Pattern

/-! ## Readings of a line -/

/-- A mark of a type: a pair of brackets, stars or ampersands. -/
def markPiece : Pattern :=
  .seq gap (oneOf [chain [literal "[", gap, literal "]"], .run 1 (· == '*'), .run 1 (· == '&')])

/-- A clause with the exceptions of a function. -/
def throwsClause : Pattern :=
  chain [literal "throws", space,
    .reluctantRun 1 (fun c => Text.isWordChar c || oneIn "., \t" c)]

/-- The parts of a line with a typed signature. -/
def signatureParts : List Pattern :=
  [.group 1 gap, .group 2 identifier, .group 3 (.many markPiece), space, .run 0 (oneIn "*&"),
    .group 4 identifier, gap, literal "(", .group 5 (.run 0 (notIn "()\n")), literal ")", gap,
    optional throwsClause, gap, .group 6 (optional (literal "\x7b")), gap]

theorem typedSignature_eq : typedSignature = wholeLine signatureParts :=
  rfl

/-- A line as the rule for signatures reads it: indentation, type, marks and blanks, name, blanks,
parameters, and what stands behind them. -/
structure Reading where
  indent : List Char
  type : List Char
  middle : List Char
  name : List Char
  gap : List Char
  params : List Char
  tail : List Char
  indent_gap : ∀ c ∈ indent, isGapChar c = true
  type_name : IsName type
  middle_marks : ∀ c ∈ middle, isMarkChar c = true
  middle_ne : middle ≠ []
  name_name : IsName name
  gap_gap : ∀ c ∈ gap, isGapChar c = true
  params_inner : ∀ c ∈ params, notIn "()\n" c = true
  newline_notMem_tail : '\n' ∉ tail

namespace Reading

variable (r : Reading)

/-- The line. -/
def text : List Char :=
  r.indent ++ (r.type ++ (r.middle ++ (r.name ++ (r.gap ++ '(' :: (r.params ++ ')' :: r.tail)))))

/-- The opening brace, if there is one. -/
def brace : List Char :=
  if '{' ∈ r.tail then ['{'] else []

/-- What the rule makes of the line. -/
def rewritten : List Char :=
  if isStatementWord r.type || isStatementWord r.name then r.text
  else
    r.indent ++ "async function ".toList ++ r.name ++ ['('] ++ untypedParams r.params ++ [')'] ++
      (if r.brace.isEmpty then [] else [' ', '{'])

/-- The captured groups. -/
def groups (marks : List Char) : List (Nat × List Char) :=
  [(6, r.brace), (5, r.params), (4, r.name), (3, marks), (2, r.type), (1, r.indent)]

theorem replace_groups (marks : List Char) :
    signatureRule.replace ⟨r.text, (0, r.text) :: r.groups marks⟩ = r.rewritten :=
  rfl

/-- A line is read in one way. -/
theorem eq_of_text {r r' : Reading} (h : r.text = r'.text) : r = r' := by
  have hname {name rest : List Char} (hname : IsName name) {p : Char → Bool}
      (hp : ∀ c, Text.isWordChar c = true → p c = false) :
      ∀ c, (name ++ rest).head? = some c → p c = false := by
    intro c hc
    obtain ⟨d, hd, hword⟩ := hname.head rest
    rw [hd] at hc
    cases hc
    exact hp _ hword
  have hgap : ∀ c, Text.isWordChar c = true → isGapChar c = false := by
    intro c hc
    refine Bool.eq_false_iff.mpr fun hgap => ?_
    rw [isWordChar_of_isGapChar hgap] at hc
    cases hc
  have hmark : ∀ c, Text.isWordChar c = true → isMarkChar c = false := by
    intro c hc
    refine Bool.eq_false_iff.mpr fun hmark => ?_
    rw [isWordChar_of_isMarkChar hmark] at hc
    cases hc
  have hmiddle (r : Reading) {rest : List Char} :
      ∀ c, (r.middle ++ rest).head? = some c → Text.isWordChar c = false := by
    intro c hc
    rw [List.head?_append_of_ne_nil _ r.middle_ne] at hc
    exact isWordChar_of_isMarkChar (r.middle_marks c (List.mem_of_mem_head? hc))
  have hopen (r : Reading) {rest : List Char} :
      ∀ c, (r.gap ++ '(' :: rest).head? = some c → Text.isWordChar c = false :=
    head?_append (fun c hc => isWordChar_of_isGapChar (r.gap_gap c hc)) (by rintro c ⟨⟩; rfl)
  unfold text at h
  obtain ⟨hindent, h⟩ := append_inj_of_class h r.indent_gap r'.indent_gap (hname r.type_name hgap)
    (hname r'.type_name hgap)
  obtain ⟨htype, h⟩ := append_inj_of_class h r.type_name.isWordChar r'.type_name.isWordChar
    (hmiddle r) (hmiddle r')
  obtain ⟨hmiddle, h⟩ := append_inj_of_class h r.middle_marks r'.middle_marks
    (hname r.name_name hmark) (hname r'.name_name hmark)
  obtain ⟨hname, h⟩ := append_inj_of_class h r.name_name.isWordChar r'.name_name.isWordChar
    (hopen r) (hopen r')
  obtain ⟨hgap, h⟩ := append_inj_of_class h r.gap_gap r'.gap_gap (by rintro c ⟨⟩; rfl)
    (by rintro c ⟨⟩; rfl)
  obtain ⟨hparams, h⟩ := append_inj_of_class (List.cons.inj h).2 r.params_inner r'.params_inner
    (by rintro c ⟨⟩; rfl) (by rintro c ⟨⟩; rfl)
  have htail := (List.cons.inj h).2
  cases r
  cases r'
  cases hindent
  cases htype
  cases hmiddle
  cases hname
  cases hgap
  cases hparams
  cases htail
  rfl

end Reading

theorem isMarkChar_of_spells_marks {text : List Char} {groups : List (Nat × List Char)}
    (h : Spells (.many markPiece) text groups) :
    (∀ c ∈ text, isMarkChar c = true) ∧ groups = [] := by
  have hwithin : (Pattern.many markPiece).Within fun c => isMarkChar c = true := by
    have hsign {d : Char} (hd : isMarkChar d = true) : ∀ c, (c == d) = true → isMarkChar c = true :=
      fun c hc => beq_iff_eq.mp hc ▸ hd
    have hgap : ∀ c, oneIn " \t" c = true → isMarkChar c = true :=
      fun c hc => isMarkChar_of_isGapChar hc
    exact ⟨hgap, ⟨⟨hsign rfl, trivial⟩, hgap, ⟨hsign rfl, trivial⟩, trivial⟩, hsign rfl, hsign rfl⟩
  refine ⟨h.within hwithin, List.eq_nil_iff_forall_not_mem.mpr fun g hg => ?_⟩
  cases h.number_mem g hg

/-- Behind the parameters there is no newline, and the last group has the brace. -/
theorem tail_of_spells {text : List Char} {groups : List (Nat × List Char)}
    (h : Spells (chain [gap, optional throwsClause, gap, .group 6 (optional (literal "\x7b")), gap])
      text groups) :
    '\n' ∉ text ∧ groups = [(6, if '{' ∈ text then ['{'] else [])] := by
  refine ⟨h.newline_notMem rfl, ?_⟩
  have hgap {text : List Char} {groups : List (Nat × List Char)} (h : Spells gap text groups) :
      '{' ∉ text ∧ groups = [] := by
    cases h with
    | run _ hgap => exact ⟨fun hmem => Bool.false_ne_true (hgap _ hmem), rfl⟩
  have hclause {text : List Char} {groups : List (Nat × List Char)}
      (h : Spells (optional throwsClause) text groups) : '{' ∉ text ∧ groups = [] := by
    have hwithin : (optional throwsClause).Within (· ≠ '{') := by
      have hsign {d : Char} (hd : d ≠ '{') : ∀ c, (c == d) = true → c ≠ '{' :=
        fun c hc => beq_iff_eq.mp hc ▸ hd
      have hspace : ∀ c, oneIn " \t" c = true → c ≠ '{' := by
        rintro c hc rfl
        cases hc
      have hname : ∀ c, (Text.isWordChar c || oneIn "., \t" c) = true → c ≠ '{' := by
        rintro c hc rfl
        cases hc
      refine ⟨⟨⟨hsign ?_, hsign ?_, hsign ?_, hsign ?_, hsign ?_, hsign ?_, trivial⟩, hspace, hname,
        trivial⟩, trivial⟩ <;> decide
    refine ⟨fun hmem => h.within hwithin _ hmem rfl, List.eq_nil_iff_forall_not_mem.mpr ?_⟩
    intro g hg
    cases h.number_mem g hg
  cases h with
  | seq hfirst h =>
  cases h with
  | seq hthrows h =>
  cases h with
  | seq hsecond h =>
  cases h with
  | seq hbrace h =>
  cases h with
  | seq hlast h =>
  cases h
  obtain ⟨hfree, rfl⟩ := hgap hfirst
  obtain ⟨hfree', rfl⟩ := hclause hthrows
  obtain ⟨hfree'', rfl⟩ := hgap hsecond
  obtain ⟨hfreeLast, rfl⟩ := hgap hlast
  cases hbrace with
  | group hbrace =>
  cases hbrace with
  | altFirst hbrace =>
      obtain ⟨rfl, rfl⟩ := eq_of_spells_mark '{' hbrace
      simp
  | altSecond hbrace =>
      cases hbrace
      simp [hfree, hfree', hfree'', hfreeLast]

/-- What the parts spell is read as a line with a signature, and the groups capture its pieces. -/
theorem exists_reading {text : List Char} {groups : List (Nat × List Char)}
    (h : Spells (chain signatureParts) text groups) :
    ∃ r : Reading, r.text = text ∧ ∃ marks, groups = r.groups marks := by
  cases h with
  | seq hindent h =>
  cases h with
  | seq htype h =>
  cases h with
  | seq hmarks h =>
  cases h with
  | seq hspace h =>
  cases h with
  | seq hsigils h =>
  cases h with
  | seq hname h =>
  cases h with
  | seq hgap h =>
  cases h with
  | seq hopen h =>
  cases h with
  | seq hparams h =>
  cases h with
  | seq hclose h =>
  cases hindent with
  | group hindent =>
  cases hindent with
  | run _ hindent =>
  cases htype with
  | group htype =>
  cases hmarks with
  | group hmarks =>
  cases hspace with
  | run hspaceNe hspace =>
  cases hsigils with
  | run _ hsigils =>
  cases hname with
  | group hname =>
  cases hgap with
  | run _ hgap =>
  cases hparams with
  | group hparams =>
  cases hparams with
  | run _ hparams =>
  obtain ⟨hisType, rfl⟩ := spells_identifier_iff.mp htype
  obtain ⟨hisName, rfl⟩ := spells_identifier_iff.mp hname
  obtain ⟨hisMark, rfl⟩ := isMarkChar_of_spells_marks hmarks
  obtain ⟨rfl, rfl⟩ := eq_of_spells_mark '(' hopen
  obtain ⟨rfl, rfl⟩ := eq_of_spells_mark ')' hclose
  obtain ⟨htail, rfl⟩ := tail_of_spells h
  have hmiddle := List.forall_mem_append.mpr ⟨hisMark, List.forall_mem_append.mpr
    ⟨fun c hc => isMarkChar_of_isGapChar (hspace c hc),
      fun c hc => isMarkChar_of_sigil (hsigils c hc)⟩⟩
  refine ⟨⟨_, _, _, _, _, _, _, hindent, hisType, hmiddle, ?_, hisName, hgap, hparams, htail⟩,
    ?_, _, rfl⟩
  · simp [List.ne_nil_of_length_pos hspaceNe]
  · simp [Reading.text]

/-- The rule for signatures rewrites a text line by line. -/
theorem linePattern_signature : LinePattern signatureParts signatureRule.replace where
  free := by
    simp only [signatureParts, List.forall_mem_cons]
    exact ⟨rfl, rfl, rfl, rfl, rfl, rfl, rfl, rfl, rfl, rfl, rfl, rfl, rfl, rfl, rfl,
      List.forall_mem_nil _⟩
  line text groups h := by
    obtain ⟨r, rfl, -⟩ := exists_reading h
    refine ⟨by simp [Reading.text], h.newline_notMem rfl⟩
  unique text groups groups' h h' := by
    obtain ⟨r, rfl, marks, rfl⟩ := exists_reading h
    obtain ⟨r', heq, marks', rfl⟩ := exists_reading h'
    obtain rfl := Reading.eq_of_text heq
    rfl

/-! ## Lines with a typed signature -/

/-- There are no such marks, or the pattern reads them behind any blanks. -/
def ReadMarks (marks : List Char) : Prop :=
  marks = [] ∨ ∀ blanks, (∀ c ∈ blanks, isGapChar c = true) →
    Spells (.many markPiece) (blanks ++ marks) []

/-- One more mark in front. -/
theorem ReadMarks.cons {mark marks : List Char}
    (hmark : Spells (oneOf [chain [literal "[", gap, literal "]"], .run 1 (· == '*'),
      .run 1 (· == '&')]) mark [])
    (hmarks : ReadMarks marks) : ReadMarks (mark ++ marks) := by
  refine Or.inr fun blanks hblanks => ?_
  have hrest : Spells (.many markPiece) marks [] := by
    rcases hmarks with rfl | hmarks
    · exact .manyNone
    · exact hmarks [] (List.forall_mem_nil _)
  have hpiece : Spells markPiece (blanks ++ mark) [] :=
    .seq (.run (Nat.zero_le _) hblanks) hmark
  rw [← List.append_assoc]
  exact .manyMore hpiece hrest

/-- Marks of a type are marks as the pattern reads them, and blanks behind the last one. -/
theorem TypeMarks.exists_spells {marks : List Char} (h : TypeMarks marks) :
    ∃ front gap, marks = front ++ gap ∧ (∀ c ∈ gap, isGapChar c = true) ∧ ReadMarks front := by
  induction h with
  | none => exact ⟨[], [], rfl, List.forall_mem_nil _, Or.inl rfl⟩
  | @blank c rest hc _ ih =>
      obtain ⟨front, gap, rfl, hgap, hfront⟩ := ih
      rcases hfront with rfl | hfront
      · exact ⟨[], c :: gap, rfl, List.forall_mem_cons.mpr ⟨hc, hgap⟩, Or.inl rfl⟩
      · refine ⟨c :: front, gap, rfl, hgap, Or.inr fun blanks hblanks => ?_⟩
        have hone : ∀ d ∈ blanks ++ [c], isGapChar d = true :=
          List.forall_mem_append.mpr ⟨hblanks, List.forall_mem_singleton.mpr hc⟩
        have hspells := hfront (blanks ++ [c]) hone
        rwa [List.append_assoc] at hspells
  | @sigil c rest hc _ ih =>
      obtain ⟨front, gap, rfl, hgap, hfront⟩ := ih
      refine ⟨[c] ++ front, gap, rfl, hgap, hfront.cons ?_⟩
      have hmem : c ∈ ['*', '&'] := List.contains_iff_mem.mp hc
      have hone {d : Char} : Spells (.run 1 (· == d)) [d] [] :=
        .run (Nat.le_refl 1) (List.forall_mem_singleton.mpr (beq_self_eq_true d))
      rcases List.mem_cons.mp hmem with rfl | hmem
      · exact .altSecond (.altFirst hone)
      · rw [List.mem_singleton.mp hmem]
        exact .altSecond (.altSecond hone)
  | @brackets inner rest hinner _ ih =>
      obtain ⟨front, gap, rfl, hgap, hfront⟩ := ih
      have hopen : Spells (literal "[") ['['] [] := .seq (.char rfl) .empty
      have hclose : Spells (literal "]") [']'] [] := .seq (.char rfl) .empty
      have hpair : Spells (chain [literal "[", Pattern.gap, literal "]"])
          (['['] ++ (inner ++ ([']'] ++ []))) [] :=
        .seq hopen (.seq (.run (Nat.zero_le _) hinner) (.seq hclose .empty))
      refine ⟨'[' :: (inner ++ [']']) ++ front, gap, by simp, hgap, hfront.cons ?_⟩
      rw [List.append_nil] at hpair
      exact .altFirst hpair

/-- A line with a typed signature: the indentation, the type with its marks, the name, the
parameters, and behind them a clause with exceptions and an opening brace, if they are there. -/
structure Signature where
  indent : List Char
  type : List Char
  marks : List Char
  blanks : List Char
  sigils : List Char
  name : List Char
  gap : List Char
  parameters : List Parameter
  beforeClause : List Char
  clause : List Char
  behindClause : List Char
  opens : Bool
  behind : List Char
  indent_gap : ∀ c ∈ indent, isGapChar c = true
  type_name : IsName type
  type_plain : isStatementWord type = false
  marks_spec : TypeMarks marks
  blanks_gap : ∀ c ∈ blanks, isGapChar c = true
  blanks_ne : blanks ≠ []
  sigils_spec : ∀ c ∈ sigils, oneIn "*&" c = true
  name_name : IsName name
  name_plain : isStatementWord name = false
  gap_gap : ∀ c ∈ gap, isGapChar c = true
  beforeClause_gap : ∀ c ∈ beforeClause, isGapChar c = true
  clause_spec : clause = [] ∨ ∃ blanks names, clause = "throws".toList ++ (blanks ++ names) ∧
    (∀ c ∈ blanks, isGapChar c = true) ∧ blanks ≠ [] ∧
    (∀ c ∈ names, (Text.isWordChar c || oneIn "., \t" c) = true) ∧ names ≠ []
  behindClause_gap : ∀ c ∈ behindClause, isGapChar c = true
  behind_gap : ∀ c ∈ behind, isGapChar c = true

namespace Signature

variable (s : Signature)

/-- The list of parameters. -/
def params : List Char :=
  Text.join [','] (s.parameters.map Parameter.text)

/-- The opening brace, if there is one. -/
def brace : List Char :=
  if s.opens then ['{'] else []

/-- What stands behind the parameters. -/
def tail : List Char :=
  s.beforeClause ++ (s.clause ++ (s.behindClause ++ (s.brace ++ s.behind)))

/-- The line. -/
def text : List Char :=
  s.indent ++ (s.type ++ ((s.marks ++ (s.blanks ++ s.sigils)) ++ (s.name ++ (s.gap ++
    '(' :: (s.params ++ ')' :: s.tail)))))

/-- The line without types. -/
def untyped : List Char :=
  s.indent ++ "async function ".toList ++ s.name ++ ['('] ++
    Text.join [',', ' '] (s.parameters.map Parameter.name) ++ [')'] ++
    (if s.opens then [' ', '{'] else [])

/-- No parenthesis and no newline stands among the parameters. -/
theorem params_inner : ∀ c ∈ s.params, notIn "()\n" c = true := by
  intro c hc
  rcases Text.mem_join hc with hcomma | ⟨piece, hpiece, hc⟩
  · rw [List.mem_singleton.mp hcomma]
    rfl
  · obtain ⟨p, -, rfl⟩ := List.mem_map.mp hpiece
    have hinner : (! ['(', ')', ',', '\n'].contains c) = true := p.isInnerChar_text c hc
    change (! ['(', ')', '\n'].contains c) = true
    simp at hinner ⊢
    exact ⟨hinner.1, hinner.2.1, hinner.2.2.2⟩

theorem spells_tail : Spells
    (chain [Pattern.gap, optional throwsClause, Pattern.gap, .group 6 (optional (literal "\x7b")),
      Pattern.gap]) s.tail [(6, s.brace)] := by
  have hrun {gap : List Char} (hgap : ∀ c ∈ gap, isGapChar c = true) :
      Spells Pattern.gap gap [] := .run (Nat.zero_le _) hgap
  have hclause : Spells (optional throwsClause) s.clause [] := by
    rcases s.clause_spec with hnone | ⟨blanks, names, hclause, hblanks, hblanksNe, hnames, hnamesNe⟩
    · rw [hnone]
      exact .altSecond .empty
    · have hword : Spells (literal "throws") "throws".toList [] :=
        .seq (.char rfl) (.seq (.char rfl) (.seq (.char rfl) (.seq (.char rfl) (.seq (.char rfl)
          (.seq (.char rfl) .empty)))))
      have hwhole : Spells throwsClause ("throws".toList ++ (blanks ++ (names ++ []))) [] :=
        .seq hword (.seq (.run (List.length_pos_iff.mpr hblanksNe) hblanks)
          (.seq (.reluctantRun (List.length_pos_iff.mpr hnamesNe) hnames) .empty))
      rw [List.append_nil, ← hclause] at hwhole
      exact .altFirst hwhole
  have hbrace : Spells (.group 6 (optional (literal "\x7b"))) s.brace [(6, s.brace)] := by
    refine .group ?_
    unfold brace
    split
    · exact .altFirst (.seq (.char rfl) .empty)
    · exact .altSecond .empty
  have hwhole : Spells _ (s.beforeClause ++ (s.clause ++ (s.behindClause ++ (s.brace ++
      (s.behind ++ []))))) ([] ++ [(6, s.brace)] ++ [] ++ [] ++ []) :=
    .seq (hrun s.beforeClause_gap) (.seq hclause (.seq (hrun s.behindClause_gap) (.seq hbrace
      (.seq (hrun s.behind_gap) .empty))))
  rw [List.append_nil] at hwhole
  exact hwhole

theorem exists_groups : ∃ groups, Spells (chain signatureParts) s.text groups := by
  obtain ⟨front, gap, hmarks, hgap, hfront⟩ := s.marks_spec.exists_spells
  have hpieces : Spells (.many markPiece) front [] := by
    rcases hfront with rfl | hfront
    · exact .manyNone
    · exact hfront [] (List.forall_mem_nil _)
  have hname {name : List Char} (hname : IsName name) : Spells identifier name [] :=
    spells_identifier_iff.mpr ⟨hname, rfl⟩
  have hspace : 1 ≤ (gap ++ s.blanks).length := by
    have hblanks := List.length_pos_iff.mpr s.blanks_ne
    rw [List.length_append]
    omega
  have hgaps : ∀ c ∈ gap ++ s.blanks, isGapChar c = true :=
    List.forall_mem_append.mpr ⟨hgap, s.blanks_gap⟩
  have hopen : Spells (literal "(") ['('] [] := .seq (.char rfl) .empty
  have hclose : Spells (literal ")") [')'] [] := .seq (.char rfl) .empty
  have hwhole : Spells (chain signatureParts) (s.indent ++ (s.type ++ (front ++
      ((gap ++ s.blanks) ++ (s.sigils ++ (s.name ++ (s.gap ++
        (['('] ++ (s.params ++ ([')'] ++ s.tail)))))))))) _ :=
    .seq (.group (.run (Nat.zero_le _) s.indent_gap)) (.seq (.group (hname s.type_name))
      (.seq (.group hpieces) (.seq (.run hspace hgaps) (.seq (.run (Nat.zero_le _) s.sigils_spec)
        (.seq (.group (hname s.name_name)) (.seq (.run (Nat.zero_le _) s.gap_gap) (.seq hopen
          (.seq (.group (.run (Nat.zero_le _) s.params_inner)) (.seq hclose s.spells_tail)))))))))
  have htext : s.text = s.indent ++ (s.type ++ (front ++ ((gap ++ s.blanks) ++ (s.sigils ++
      (s.name ++ (s.gap ++ (['('] ++ (s.params ++ ([')'] ++ s.tail))))))))) := by
    rw [text, hmarks]
    simp only [List.append_assoc, List.cons_append, List.nil_append]
  exact ⟨_, htext ▸ hwhole⟩

/-- The line as the rule reads it. -/
def reading : Reading where
  indent := s.indent
  type := s.type
  middle := s.marks ++ (s.blanks ++ s.sigils)
  name := s.name
  gap := s.gap
  params := s.params
  tail := s.tail
  indent_gap := s.indent_gap
  type_name := s.type_name
  middle_marks := List.forall_mem_append.mpr ⟨s.marks_spec.isMarkChar, List.forall_mem_append.mpr
    ⟨fun c hc => isMarkChar_of_isGapChar (s.blanks_gap c hc),
      fun c hc => isMarkChar_of_sigil (s.sigils_spec c hc)⟩⟩
  middle_ne := by simp [s.blanks_ne]
  name_name := s.name_name
  gap_gap := s.gap_gap
  params_inner := s.params_inner
  newline_notMem_tail := (tail_of_spells s.spells_tail).1

theorem rewritten_reading : s.reading.rewritten = s.untyped := by
  have hbrace : s.brace = s.reading.brace :=
    congrArg Prod.snd (List.cons.inj (tail_of_spells s.spells_tail).2).1
  have hempty : s.brace.isEmpty = ! s.opens := by
    unfold brace
    cases s.opens <;> rfl
  rw [Reading.rewritten, ← hbrace, hempty]
  change (if isStatementWord s.type || isStatementWord s.name then s.text else
    s.indent ++ "async function ".toList ++ s.name ++ ['('] ++ untypedParams s.params ++ [')'] ++
      (if (! s.opens) = true then [] else [' ', '{'])) = s.untyped
  rw [s.type_plain, s.name_plain, untyped, params, untypedParams_join]
  cases s.opens <;> rfl

/-- The rule takes the types away, and keeps the names of the parameters in their order. -/
theorem apply_text : signatureRule.apply s.text = s.untyped := by
  obtain ⟨groups, hspells⟩ := s.exists_groups
  have happly := linePattern_signature.replaceAll_line hspells
  obtain ⟨r, htext, marks, rfl⟩ := exists_reading hspells
  obtain rfl : r = s.reading := Reading.eq_of_text htext
  exact (happly.trans (s.reading.replace_groups marks)).trans s.rewritten_reading

theorem newline_notMem_text : '\n' ∉ s.text := by
  obtain ⟨groups, hspells⟩ := s.exists_groups
  exact (linePattern_signature.line _ _ hspells).2

end Signature

/-- The line `  int[] sum(int a, String[] b = c) throws E {`. -/
def sumSignature : Signature where
  indent := [' ', ' ']
  type := ['i', 'n', 't']
  marks := ['[', ']']
  blanks := [' ']
  sigils := []
  name := ['s', 'u', 'm']
  gap := []
  parameters :=
    [{ blanks := [], type := ['i', 'n', 't'], marks := [' '], name := ['a'], trailing := []
       default? := none
       blanks_gap := Syntax.forall_of_all rfl
       type_name := ⟨'i', ['n', 't'], rfl, rfl, Syntax.forall_of_all rfl⟩
       marks_spec := .blank rfl .none
       marks_ne := by decide
       name_name := ⟨'a', [], rfl, rfl, Syntax.forall_of_all rfl⟩
       trailing_spec := .none
       trailing_inner := Syntax.forall_of_all rfl
       default_inner := Syntax.forall_of_all rfl },
     { blanks := [' '], type := ['S', 't', 'r', 'i', 'n', 'g'], marks := ['[', ']', ' ']
       name := ['b'], trailing := [' '], default? := some [' ', 'c']
       blanks_gap := Syntax.forall_of_all rfl
       type_name := ⟨'S', ['t', 'r', 'i', 'n', 'g'], rfl, rfl, Syntax.forall_of_all rfl⟩
       marks_spec := @TypeMarks.brackets [] [' '] (Syntax.forall_of_all rfl) (.blank rfl .none)
       marks_ne := by decide
       name_name := ⟨'b', [], rfl, rfl, Syntax.forall_of_all rfl⟩
       trailing_spec := .blank rfl .none
       trailing_inner := Syntax.forall_of_all rfl
       default_inner := Syntax.forall_of_all rfl }]
  beforeClause := [' ']
  clause := ['t', 'h', 'r', 'o', 'w', 's', ' ', 'E']
  behindClause := [' ']
  opens := true
  behind := []
  indent_gap := Syntax.forall_of_all rfl
  type_name := ⟨'i', ['n', 't'], rfl, rfl, Syntax.forall_of_all rfl⟩
  type_plain := by decide
  marks_spec := @TypeMarks.brackets [] [] (Syntax.forall_of_all rfl) .none
  blanks_gap := Syntax.forall_of_all rfl
  blanks_ne := by decide
  sigils_spec := Syntax.forall_of_all rfl
  name_name := ⟨'s', ['u', 'm'], rfl, rfl, Syntax.forall_of_all rfl⟩
  name_plain := by decide
  gap_gap := Syntax.forall_of_all rfl
  beforeClause_gap := Syntax.forall_of_all rfl
  clause_spec := Or.inr ⟨[' '], ['E'], rfl, Syntax.forall_of_all rfl, List.cons_ne_nil _ _,
    Syntax.forall_of_all rfl, List.cons_ne_nil _ _⟩
  behindClause_gap := Syntax.forall_of_all rfl
  behind_gap := Syntax.forall_of_all rfl

end StepTrace.Lowering
