import StepTrace.Proofs.MatchedLines

/-!
# Line numbers of host programs

A step of a host program is shown on the line of the source with the same number. That is right
if every rule replaces its matches by text with as many newlines: then untouched text stays on
its line through all passes, unwrapping a class only blanks lines, and the call of the entry
function comes behind everything else.

* `java_line_numbers`: the rules for Java do so for every text.
* `cpp_line_numbers_iff`: for C++ four rules can fail to. The outputs on `cout` and `cerr` drop
  the newlines around their parts, an input on `cin` is removed with those inside it, and a swap
  writes both of its arguments twice. Where none of them meets such a newline, everything is as
  for Java; `not_lineNumbers_brokenOutput` is a text with one.
-/

namespace StepTrace.Text

/-! ## Newlines of trimmed, cut and joined text -/

theorem newlines_trim_le (text : List Char) : newlines (trim text) ≤ newlines text :=
  (infix_trim text).sublist.count_le '\n'

theorem newlines_join {separator : List Char} (h : '\n' ∉ separator) (pieces : List (List Char)) :
    newlines (join separator pieces) = newlines pieces.flatten := by
  have hnone := newlines_eq_zero.mpr h
  unfold join List.intercalate
  induction pieces with
  | nil => rfl
  | cons piece pieces ih =>
      cases pieces with
      | nil => rfl
      | cons next pieces =>
          rw [List.intersperse_cons_cons, List.flatten_cons, List.flatten_cons, newlines_append,
            newlines_append, ih, hnone, Nat.zero_add, ← newlines_append, ← List.flatten_cons]

theorem newlines_trimmed_le (pieces : List (List Char)) :
    newlines (pieces.map trim).flatten ≤ newlines pieces.flatten := by
  induction pieces with
  | nil => exact Nat.le_refl _
  | cons piece pieces ih =>
      rw [List.map_cons, List.flatten_cons, List.flatten_cons, newlines_append, newlines_append]
      exact Nat.add_le_add (newlines_trim_le piece) ih

/-- Trimmed pieces have as many newlines as the pieces only if none loses one. -/
theorem newlines_trimmed_iff (pieces : List (List Char)) :
    newlines (pieces.map trim).flatten = newlines pieces.flatten ↔
      ∀ piece ∈ pieces, newlines (trim piece) = newlines piece := by
  induction pieces with
  | nil => exact ⟨fun _ => List.forall_mem_nil _, fun _ => rfl⟩
  | cons piece pieces ih =>
      have hpiece := newlines_trim_le piece
      have hpieces := newlines_trimmed_le pieces
      rw [List.map_cons, List.flatten_cons, List.flatten_cons, newlines_append, newlines_append,
        List.forall_mem_cons]
      refine Iff.trans ?_ (and_congr Iff.rfl ih)
      omega

end StepTrace.Text

namespace StepTrace.Lowering

open Text Pattern

section

variable {text length value row params : List Char}

theorem newline_notMem_trim (h : '\n' ∉ text) : '\n' ∉ trim text :=
  fun hmem => h ((infix_trim text).subset hmem)

/-! ## What the rules write -/

theorem newlines_braceToBracket (text : List Char) :
    newlines (braceToBracket text) = newlines text := by
  induction text with
  | nil => rfl
  | cons c text ih =>
      have hc : (if c = '{' then '[' else if c = '}' then ']' else c) = '\n' ↔ c = '\n' := by
        split
        · simp_all
        · split <;> simp_all
      unfold newlines braceToBracket at ih ⊢
      simp only [List.map_cons, List.count_cons, ih, beq_iff_eq, hc]

theorem newline_notMem_filledList (hlength : '\n' ∉ length) (hvalue : '\n' ∉ value) :
    '\n' ∉ filledList length value := by
  unfold filledList
  simp only [List.mem_append, not_or]
  exact ⟨⟨⟨⟨by decide, newline_notMem_trim hlength⟩, by decide⟩, newline_notMem_trim hvalue⟩,
    by decide⟩

theorem newline_notMem_filledRows (hlength : '\n' ∉ length) (hrow : '\n' ∉ row) :
    '\n' ∉ filledRows length row := by
  unfold filledRows
  simp only [List.mem_append, not_or]
  exact ⟨⟨⟨⟨by decide, newline_notMem_trim hlength⟩, by decide⟩, newline_notMem_trim hrow⟩,
    by decide⟩

/-- A captured text of a match that is found in a text is a piece of it. -/
theorem infix_of_find? {pattern : Pattern} {m : Match} (h : pattern.find? text = some m)
    (k : Nat) : m.group k <:+: text := by
  obtain ⟨hfits, hpiece⟩ := fits_of_find? h
  exact (hfits.infix_group k).trans hpiece

theorem newline_notMem_untypedParams (h : '\n' ∉ params) : '\n' ∉ untypedParams params := by
  have hname {param name : List Char} (hparam : '\n' ∉ param)
      (hname : untypedParam? param = some name) : '\n' ∉ name := by
    unfold untypedParam? at hname
    dsimp only at hname
    split at hname
    · cases hname
    · obtain ⟨m, hm, rfl⟩ := Option.map_eq_some_iff.mp hname
      have hpiece := (infix_of_find? hm 1).trans (infix_trim _)
      have htake := (List.takeWhile_prefix (l := trim param) (· ≠ '=')).isInfix
      exact fun hmem => hparam (((hpiece.trans htake).trans (infix_trim _)).subset hmem)
  rw [← newlines_eq_zero, untypedParams, newlines_join (by decide), newlines_eq_zero]
  intro hmem
  obtain ⟨name, hmem, hline⟩ := List.mem_flatten.mp hmem
  obtain ⟨param, hparam, hsome⟩ := List.mem_filterMap.mp hmem
  exact hname (fun hmem => h ((infix_of_mem_cut hparam).subset hmem)) hsome hline

theorem newline_notMem_declaration {name : List Char} (hname : '\n' ∉ name)
    (hvalue : '\n' ∉ value) : '\n' ∉ declaration name value := by
  unfold declaration
  simp only [List.mem_append, not_or]
  exact ⟨⟨⟨⟨by decide, hname⟩, by decide⟩, hvalue⟩, by decide⟩

theorem newline_notMem_unlessStatement {replace : Match → List Char} {m : Match}
    (htext : '\n' ∉ m.text) (h : '\n' ∉ replace m) : '\n' ∉ unlessStatement replace m := by
  unfold unlessStatement
  split
  · exact htext
  · exact h

theorem newline_notMem_vectorValue {m : Match} (h : ∀ k, '\n' ∉ m.group k) :
    '\n' ∉ vectorValue m := by
  unfold vectorValue
  split
  · exact newline_notMem_filledList (h 2) (by decide)
  · rename_i value hvalue
    have hvalue : '\n' ∉ value := by
      have := h 3
      rwa [Match.group, hvalue] at this
    split
    · rename_i row hrow
      exact newline_notMem_filledRows (h 2)
        fun hmem => hvalue ((infix_of_find? hrow 1).subset hmem)
    · exact newline_notMem_filledList (h 2) hvalue

end

/-! ## Rules of both languages -/

theorem keepsLines_genericRules : ∀ rule ∈ genericRules, rule.KeepsLines :=
  List.forall_mem_singleton.mpr (keepsLines_template (by decide))

theorem keepsLines_initializerRules : ∀ rule ∈ initializerRules, rule.KeepsLines := by
  refine List.forall_mem_cons.mpr ⟨fun m hm => ?_, List.forall_mem_singleton.mpr fun m hm => ?_⟩
  · -- the newlines are between the braces
    obtain ⟨hcount, hothers⟩ := hm.newlines_text (show _ = some [2] by decide)
      (nodup_of_isAscending (by decide))
    have h1 := newlines_eq_zero.mpr (hothers 1 (by decide) (by decide))
    have h3 := newlines_eq_zero.mpr (hothers 3 (by decide) (by decide))
    rw [hcount, newlines_append, newlines_append, newlines_braceToBracket, h1, h3,
      List.flatMap_singleton, Nat.zero_add, Nat.add_zero]
  · obtain ⟨hcount, -⟩ := hm.newlines_text (show _ = some [1] by decide)
      (nodup_of_isAscending (by decide))
    rw [hcount, newlines_braceToBracket, List.flatMap_singleton]

theorem keepsLines_signatureRule : signatureRule.KeepsLines := by
  refine keepsLines_of_lineFree (by decide) fun m hgroup htext => ?_
  have hparams := newline_notMem_untypedParams (hgroup 5)
  change '\n' ∉ if isStatementWord (m.group 2) || isStatementWord (m.group 4) then m.text else _
  split
  · exact htext
  · simp only [List.mem_append, not_or]
    refine ⟨⟨⟨⟨⟨⟨hgroup 1, by decide⟩, hgroup 4⟩, by decide⟩, hparams⟩, by decide⟩, ?_⟩
    split <;> decide

theorem keepsLines_declarationRules : ∀ rule ∈ declarationRules, rule.KeepsLines :=
  List.forall_mem_cons.mpr ⟨keepsLines_template (by decide),
    List.forall_mem_singleton.mpr (keepsLines_template (by decide))⟩

theorem keepsLines_rangeForRule : rangeForRule.KeepsLines :=
  keepsLines_template (by decide)

theorem keepsLines_cleanupRules : ∀ rule ∈ cleanupRules, rule.KeepsLines := by
  simp only [cleanupRules, List.forall_mem_cons]
  refine ⟨?_, ?_, ?_, List.forall_mem_nil _⟩
  all_goals exact keepsLines_template (by decide)

/-! ## Rules for Java -/

theorem keepsLines_javaAllocations : ∀ rule ∈ javaAllocations, rule.KeepsLines := by
  simp only [javaAllocations, List.forall_mem_cons]
  refine ⟨?_, ?_, ?_, ?_, ?_, ?_, List.forall_mem_nil _⟩
  · refine keepsLines_of_lineFree (by decide) fun m hgroup _ => ?_
    have hrows := newline_notMem_filledRows (hgroup 2) (hgroup 3)
    simp only [List.mem_append, not_or]
    exact ⟨⟨⟨by decide, hgroup 1⟩, by decide⟩, hrows⟩
  · exact keepsLines_of_lineFree (by decide) fun m hgroup _ =>
      newline_notMem_filledRows (hgroup 1) (hgroup 2)
  · exact keepsLines_of_lineFree (by decide) fun m hgroup _ =>
      newline_notMem_filledList (hgroup 1) (by decide)
  all_goals exact keepsLines_template (by decide)

theorem keepsLines_javaCalls : ∀ rule ∈ javaCalls, rule.KeepsLines := by
  simp only [javaCalls, List.forall_mem_cons]
  refine ⟨keepsLines_rangeForRule, ?_, ?_, ?_, ?_, ?_, ?_, ?_, ?_, ?_, ?_, ?_, ?_, ?_, ?_, ?_, ?_,
    ?_, ?_, List.forall_mem_nil _⟩
  all_goals exact keepsLines_template (by decide)

theorem keepsLines_java : ∀ pass ∈ java.passes, ∀ rule ∈ pass.rules, rule.KeepsLines := by
  have hheaders : ∀ rule ∈ javaHeaders, rule.KeepsLines := by
    simp only [javaHeaders, List.forall_mem_cons]
    refine ⟨?_, ?_, ?_, ?_, List.forall_mem_nil _⟩
    all_goals exact keepsLines_template (by decide)
  have hmodifiers : ∀ rule ∈ javaModifiers, rule.KeepsLines :=
    List.forall_mem_singleton.mpr (keepsLines_template (by decide))
  simp only [java, List.forall_mem_cons]
  exact ⟨hheaders, hmodifiers, keepsLines_genericRules, keepsLines_initializerRules,
    keepsLines_javaAllocations, ⟨keepsLines_signatureRule, List.forall_mem_nil _⟩,
    keepsLines_declarationRules, keepsLines_javaCalls, keepsLines_cleanupRules,
    List.forall_mem_nil _⟩

/-! ## Rules for C++ -/

theorem keepsLines_cppAllocations : ∀ rule ∈ cppAllocations, rule.KeepsLines := by
  simp only [cppAllocations, List.forall_mem_cons]
  refine ⟨?_, ?_, ?_, ?_, ?_, ?_, ?_, List.forall_mem_nil _⟩
  · refine keepsLines_of_lineFree (by decide) fun m hgroup htext => ?_
    have hrows := newline_notMem_filledRows (hgroup 3) (hgroup 4)
    dsimp only
    exact newline_notMem_unlessStatement htext (newline_notMem_declaration (hgroup 2) hrows)
  · refine keepsLines_of_lineFree (by decide) fun m hgroup htext => ?_
    have hlist := newline_notMem_filledList (hgroup 3) (show '\n' ∉ ['0'] by decide)
    dsimp only
    exact newline_notMem_unlessStatement htext (newline_notMem_declaration (hgroup 2) hlist)
  · refine keepsLines_of_lineFree (by decide) fun m hgroup htext => ?_
    dsimp only
    refine newline_notMem_unlessStatement htext ?_
    simp only [List.mem_append, not_or]
    exact ⟨⟨by decide, hgroup 2⟩, by decide⟩
  · exact keepsLines_of_lineFree (by decide) fun m hgroup _ =>
      newline_notMem_declaration (hgroup 1) (newline_notMem_vectorValue hgroup)
  · exact keepsLines_template (by decide)
  · exact keepsLines_of_lineFree (by decide) fun m hgroup _ =>
      newline_notMem_filledRows (hgroup 1) (hgroup 2)
  · exact keepsLines_of_lineFree (by decide) fun m hgroup _ =>
      newline_notMem_filledList (hgroup 1) (by decide)

theorem keepsLines_mathFunctionRule : mathFunctionRule.KeepsLines := by
  intro m hm
  obtain ⟨hcount, hothers⟩ := hm.newlines_text (show _ = some [1] by decide)
    (nodup_of_isAscending (by decide))
  change newlines (if (m.group 2).isEmpty then _ else m.text) = _
  split
  · -- only the character in front of the name can be a newline
    have h3 := newlines_eq_zero.mpr (hothers 3 (by decide) (by decide))
    have hmath : newlines "Math.".toList = 0 := by decide
    have hparen : newlines ['('] = 0 := by decide
    rw [hcount, newlines_append, newlines_append, newlines_append, h3, hmath, hparen,
      List.flatMap_singleton, Nat.add_zero]
  · rfl

/-- The parts of an output chain, cut at the operators. -/
def outputParts (m : Match) : List (List Char) :=
  cut ['<', '<'] (m.group 1)

/-- The parts that are left out have no newlines. -/
theorem newlines_streamArguments (chain : List Char) :
    newlines (streamArguments chain) =
      newlines ((cut ['<', '<'] chain).map trim).flatten := by
  unfold streamArguments
  dsimp only
  rw [newlines_join (by decide)]
  generalize (cut ['<', '<'] chain).map trim = parts
  induction parts with
  | nil => rfl
  | cons part parts ih =>
      rw [List.filter_cons, List.flatten_cons, newlines_append]
      split
      · rw [List.flatten_cons, newlines_append, ih]
      · rename_i hpart
        have hnone : newlines part = 0 := by
          by_cases hempty : part = []
          · rw [hempty]
            rfl
          · by_cases hendl : part = "endl".toList
            · rw [hendl]
              decide
            · have hbreak : part = ['"', '\\', 'n', '"'] := by simp_all
              rw [hbreak]
              decide
        rw [hnone, ih, Nat.zero_add]

/-- An output keeps its newlines only if none stands at an end of one of its parts. -/
theorem newlines_stream_iff {name stream function : String}
    (hgroups : (streamRule name stream function).pattern.lineGroups = some [1])
    (hnumbers : isAscending 0 (streamRule name stream function).pattern.numbers = true)
    (hfunction : newlines function.toList = 0) {m : Match}
    (hm : m.Fits (streamRule name stream function).pattern) :
    newlines ((streamRule name stream function).replace m) = newlines m.text ↔
      ∀ part ∈ outputParts m, newlines (trim part) = newlines part := by
  obtain ⟨hcount, -⟩ := hm.newlines_text hgroups (nodup_of_isAscending hnumbers)
  have htext : newlines m.text = newlines (outputParts m).flatten := by
    rw [hcount, List.flatMap_singleton, ← newlines_join (show '\n' ∉ ['<', '<'] by decide),
      outputParts, join_cut]
  have hreplace : newlines ((streamRule name stream function).replace m) =
      newlines ((outputParts m).map trim).flatten := by
    have hopen : newlines ['('] = 0 := by decide
    have hclose : newlines [')', ';'] = 0 := by decide
    change newlines (function.toList ++ ['('] ++ streamArguments (m.group 1) ++ [')', ';']) = _
    rw [newlines_append, newlines_append, newlines_append, hfunction, hopen, hclose,
      newlines_streamArguments, outputParts, Nat.zero_add, Nat.add_zero]
  rw [htext, hreplace]
  exact newlines_trimmed_iff _

/-- The match has no newline that its rule loses or writes twice. -/
structure LosesNoLine (rule : Rule) (m : Match) : Prop where
  parts : rule.name = "cout" ∨ rule.name = "cerr" →
    ∀ part ∈ outputParts m, newlines (trim part) = newlines part
  whole : rule.name = "cin" ∨ rule.name = "swap" → '\n' ∉ m.text

section

variable {rule : Rule} {m : Match}

theorem losesNoLine_iff_parts (hname : rule.name = "cout" ∨ rule.name = "cerr") :
    LosesNoLine rule m ↔ ∀ part ∈ outputParts m, newlines (trim part) = newlines part := by
  refine ⟨fun h => h.parts hname, fun h => ⟨fun _ => h, fun hname' => ?_⟩⟩
  rcases hname with hname | hname <;> simp [hname] at hname'

theorem losesNoLine_iff_whole (hname : rule.name = "cin" ∨ rule.name = "swap") :
    LosesNoLine rule m ↔ '\n' ∉ m.text := by
  refine ⟨fun h => h.whole hname, fun h => ⟨fun hname' => ?_, fun _ => h⟩⟩
  rcases hname with hname | hname <;> simp [hname] at hname'

/-- A rule with another name keeps lines whatever it matches. -/
theorem losesNoLine_of_name (h : (["cout", "cerr", "cin", "swap"].contains rule.name) = false) :
    LosesNoLine rule m := by
  have hname : rule.name ∉ ["cout", "cerr", "cin", "swap"] := by simpa using h
  refine ⟨fun hrule => ?_, fun hrule => ?_⟩
  all_goals rcases hrule with hrule | hrule <;> simp [hrule] at hname

end

/-- Exactly the matches without such newlines are replaced by text with as many newlines. -/
def Rule.KeepsLinesUnlessLost (rule : Rule) : Prop :=
  ∀ m : Match, m.Fits rule.pattern →
    (newlines (rule.replace m) = newlines m.text ↔ LosesNoLine rule m)

theorem Rule.KeepsLines.unlessLost {rule : Rule} (h : rule.KeepsLines)
    (hname : (["cout", "cerr", "cin", "swap"].contains rule.name) = false) :
    rule.KeepsLinesUnlessLost :=
  fun m hm => iff_of_true (h m hm) (losesNoLine_of_name hname)

theorem unlessLost_cppCalls : ∀ rule ∈ cppCalls, rule.KeepsLinesUnlessLost := by
  simp only [cppCalls, List.forall_mem_cons]
  refine ⟨keepsLines_rangeForRule.unlessLost (by decide), fun m hm => ?cout, fun m hm => ?cerr,
    fun m hm => ?cin, ?_, ?_, ?_, ?_, ?_, ?_, ?_, ?_, ?_, ?_, ?_,
    keepsLines_mathFunctionRule.unlessLost (by decide), fun m hm => ?swap, ?_,
    List.forall_mem_nil _⟩
  case cout =>
    rw [losesNoLine_iff_parts (Or.inl rfl)]
    exact newlines_stream_iff (by decide) (by decide) (by decide) hm
  case cerr =>
    rw [losesNoLine_iff_parts (Or.inr rfl)]
    exact newlines_stream_iff (by decide) (by decide) (by decide) hm
  case cin =>
    rw [losesNoLine_iff_whole (Or.inl rfl), ← newlines_eq_zero]
    exact eq_comm
  case swap =>
    -- both arguments are written twice
    obtain ⟨hcount, hothers⟩ := hm.newlines_text (show _ = some [1, 2] by decide)
      (nodup_of_isAscending (by decide))
    have hfill := newlines_fill (show List.all [.text "[", .group 1, .text ", ", .group 2,
      .text "] = [", .group 2, .text ", ", .group 1, .text "]"] Piece.isPlain = true by decide)
      hothers
    have htwice : newlines (([1, 2, 2, 1] : List Nat).flatMap m.group) =
        newlines m.text + newlines m.text := by
      simp only [hcount, List.flatMap_cons, List.flatMap_nil, newlines_append, List.append_nil]
      omega
    rw [losesNoLine_iff_whole (Or.inr rfl), ← newlines_eq_zero]
    refine ⟨fun h => ?_, fun h => (hfill.trans htwice).trans ?_⟩
    · have := (hfill.trans htwice).symm.trans h
      omega
    · omega
  all_goals exact (keepsLines_template (by decide)).unlessLost (by decide)

theorem unlessLost_cpp : ∀ pass ∈ cpp.passes, ∀ rule ∈ pass.rules, rule.KeepsLinesUnlessLost := by
  have hheaders : ∀ rule ∈ cppHeaders, rule.KeepsLines := by
    simp only [cppHeaders, List.forall_mem_cons]
    refine ⟨?_, ?_, ?_, List.forall_mem_nil _⟩
    all_goals exact keepsLines_template (by decide)
  have hmodifiers : ∀ rule ∈ cppModifiers, rule.KeepsLines := by
    simp only [cppModifiers, List.forall_mem_cons]
    refine ⟨?_, ?_, ?_, List.forall_mem_nil _⟩
    all_goals exact keepsLines_template (by decide)
  have hnamed {rules : List Rule} (hrules : ∀ rule ∈ rules, rule.KeepsLines)
      (hnames : (rules.any fun rule => ["cout", "cerr", "cin", "swap"].contains rule.name) =
        false) : ∀ rule ∈ rules, rule.KeepsLinesUnlessLost :=
    fun rule hrule => (hrules rule hrule).unlessLost
      (Bool.eq_false_iff.mpr (List.any_eq_false.mp hnames rule hrule))
  simp only [cpp, List.forall_mem_cons]
  exact ⟨hnamed hheaders (by decide), hnamed hmodifiers (by decide),
    hnamed keepsLines_genericRules (by decide), hnamed keepsLines_initializerRules (by decide),
    hnamed keepsLines_cppAllocations (by decide),
    ⟨keepsLines_signatureRule.unlessLost (by decide), List.forall_mem_nil _⟩,
    hnamed keepsLines_declarationRules (by decide), unlessLost_cppCalls,
    hnamed keepsLines_cleanupRules (by decide), List.forall_mem_nil _⟩

/-! ## Host programs -/

/-- The host program has the line numbers of the source: no change adds or takes away a newline,
so the lowered text has those of the source, and a character that no change touches stays on
its line. Behind the lowered text there is at most the call of the entry function. -/
structure LineNumbers (rules : Ruleset) (source : String) (host : HostProgram) : Prop where
  edits : Linked source.toList (rules.edits source.toList) (rules.lowered source.toList)
  changes : ∀ edit ∈ rules.edits source.toList, edit.KeepsLines
  newlines : newlines (rules.lowered source.toList) = newlines source.toList
  untouched : ∀ i j, carryAll (rules.edits source.toList) i = some j →
    SamePlace source.toList i (rules.lowered source.toList) j
  host : host.source.toList = rules.lowered source.toList ∨
    host.source.toList =
      trimEnd (rules.lowered source.toList) ++ "\nawait main();\n".toList

theorem callEntry_eq_or (name : String) (text : List Char) :
    callEntry name text = text ∨
      callEntry name text =
        trimEnd text ++ ("\nawait ".toList ++ name.toList ++ "();\n".toList) := by
  unfold callEntry
  split
  · exact Or.inl rfl
  · exact Or.inr (by simp only [List.append_assoc])

theorem lineNumbers_of_keepsLines {rules : Ruleset} {source : String}
    (hentry : rules.entryFunction = some "main")
    (h : ∀ application ∈ rules.applications source.toList,
      (application.1.edit application.2).KeepsLines) {host : HostProgram}
    (hhost : host.source = String.ofList (rules.run source.toList)) :
    LineNumbers rules source host := by
  have hedits : ∀ edit ∈ rules.edits source.toList, edit.KeepsLines := by
    refine List.forall_mem_append.mpr ⟨fun edit hedit => ?_, ?_⟩
    · obtain ⟨application, happlication, rfl⟩ := List.mem_map.mp hedit
      exact h application happlication
    · split
      · exact List.forall_mem_singleton.mpr (keepsLines_unwrapEdit _)
      · exact List.forall_mem_nil _
  obtain ⟨hnewlines, huntouched⟩ := (rules.linked_edits source.toList).keepsLines hedits
  refine ⟨rules.linked_edits _, hedits, hnewlines, huntouched, ?_⟩
  rw [hhost, String.toList_ofList, rules.run_eq, hentry]
  exact callEntry_eq_or "main" _

/-- Lowering a Java program keeps its line numbers. Every rule does in every text, and all that
is done to the class around the program is to blank two lines. -/
theorem java_line_numbers :
    (∀ pass ∈ java.passes, ∀ rule ∈ pass.rules, ∀ text, (rule.edit text).KeepsLines) ∧
      (∀ text, Blanks (splitLines text) (splitLines (unwrapClass text))) ∧
      ∀ source, LineNumbers java source (toHost source .java) := by
  have hrules (pass : Pass) (hpass : pass ∈ java.passes) (rule : Rule)
      (hrule : rule ∈ pass.rules) (text : List Char) : (rule.edit text).KeepsLines :=
    (keepsLines_java pass hpass rule hrule).edit text
  refine ⟨hrules, blanks_unwrapClass, fun source => ?_⟩
  refine lineNumbers_of_keepsLines rfl (fun application happlication => ?_) rfl
  obtain ⟨pass, hpass, hrule⟩ := exists_pass_of_mem_applications happlication
  exact hrules pass hpass application.1 hrule application.2

/-- Lowering a C++ program changes a line number only by an output, an input or a swap with a
newline that it loses or writes twice. -/
theorem cpp_line_numbers_iff (source : String) :
    LineNumbers cpp source (toHost source .cpp) ↔
      ∀ application ∈ cpp.applications source.toList,
        ∀ cut ∈ (application.1.pattern.cuts application.2).found,
          LosesNoLine application.1 cut.2 := by
  have hrule (application : Rule × List Char)
      (happlication : application ∈ cpp.applications source.toList) :
      application.1.KeepsLinesUnlessLost := by
    obtain ⟨pass, hpass, hrule⟩ := exists_pass_of_mem_applications happlication
    exact unlessLost_cpp pass hpass application.1 hrule
  constructor
  · intro h application happlication cut hcut
    refine (hrule application happlication cut.2 (fits_of_mem_cuts hcut)).mp ?_
    have hedit : application.1.edit application.2 ∈ cpp.edits source.toList :=
      List.mem_append_left _ (List.mem_map_of_mem happlication)
    exact h.changes _ hedit ⟨cut.1, cut.2.text, application.1.replace cut.2⟩
      (List.mem_map.mpr ⟨cut, hcut, rfl⟩)
  · intro h
    refine lineNumbers_of_keepsLines rfl (fun application happlication change hchange => ?_) rfl
    obtain ⟨cut, hcut, rfl⟩ := List.mem_map.mp hchange
    exact (hrule application happlication cut.2 (fits_of_mem_cuts hcut)).mpr
      (h application happlication cut hcut)

/-- A C++ program with an output over two lines. -/
def brokenOutput : String :=
  "void main() \x7b\n  cout << 1\n    << 2;\n\x7d\n"

set_option maxRecDepth 100000 in
theorem not_lineNumbers_brokenOutput :
    ¬ LineNumbers cpp brokenOutput (toHost brokenOutput .cpp) := by
  intro h
  have hlost : newlines (cpp.lowered brokenOutput.toList) ≠ newlines brokenOutput.toList := by
    decide +kernel
  exact hlost h.newlines

end StepTrace.Lowering
