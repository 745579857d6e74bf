import StepTrace.Lowering.Host
import StepTrace.Proofs.MatchedText

/-!
# Edits of a text

Lowering replaces pieces of a text and keeps what stands between them. An edit records both,
so that a character that no change touches can be followed from the text before the edit to
the one behind it, and through a sequence of edits (`carryAll`).

* `Edit.before`, `Edit.after`: the two texts of an edit. `Linked`: edits that go on from one
  another's text.
* `Edit.KeepsLines`: every change has as many newlines as the piece it replaces. Then the
  number of lines stays, and untouched characters stay on their lines (`Linked.keepsLines`).
* `Ruleset.applications`: the rules in the order in which they are applied, each with the text
  that it finds. `Ruleset.edits` are their edits and the one that unwraps a class, and they lead
  from the source to the text in front of the entry call (`linked_edits`).
-/

namespace StepTrace.Text

/-- A piece of a text that is replaced, and the untouched text in front of it. -/
structure Change where
  kept : List Char
  old : List Char
  new : List Char

/-- Changes from the left to the right and the untouched text behind the last one. -/
structure Edit where
  changes : List Change
  tail : List Char

namespace Edit

/-- The text that is edited. -/
def before (edit : Edit) : List Char :=
  edit.changes.flatMap (fun change => change.kept ++ change.old) ++ edit.tail

/-- The edited text. -/
def after (edit : Edit) : List Char :=
  edit.changes.flatMap (fun change => change.kept ++ change.new) ++ edit.tail

/-- The place behind the changes of a place in front of them, if it is in untouched text. -/
def carryOver : List Change → Nat → Option Nat
  | [], i => some i
  | change :: changes, i =>
    if i < change.kept.length then some i
    else if i < change.kept.length + change.old.length then none
    else (carryOver changes (i - (change.kept.length + change.old.length))).map
      (change.kept.length + change.new.length + ·)

/-- Where an untouched character stands in the edited text. -/
def carry (edit : Edit) (i : Nat) : Option Nat :=
  carryOver edit.changes i

/-- No change adds or takes away a newline. -/
def KeepsLines (edit : Edit) : Prop :=
  ∀ change ∈ edit.changes, newlines change.new = newlines change.old

end Edit

/-- The line of a place in a text, counted from one. -/
def lineAt (text : List Char) (i : Nat) : Nat :=
  newlines (text.take i) + 1

/-- The same character at two places, which are on the same line of their texts. -/
structure SamePlace (text : List Char) (i : Nat) (text' : List Char) (j : Nat) : Prop where
  char : text[i]? = text'[j]?
  line : lineAt text i = lineAt text' j

namespace SamePlace

variable {text text' text'' front front' : List Char} {i j k : Nat}

theorem trans (h : SamePlace text i text' j) (h' : SamePlace text' j text'' k) :
    SamePlace text i text'' k :=
  ⟨h.char.trans h'.char, h.line.trans h'.line⟩

/-- Texts in front with as many newlines do not matter. -/
theorem append (h : SamePlace text i text' j) (hfront : newlines front' = newlines front) :
    SamePlace (front ++ text) (front.length + i) (front' ++ text') (front'.length + j) where
  char := by
    rw [List.getElem?_append_right (Nat.le_add_right _ _), Nat.add_sub_cancel_left,
      List.getElem?_append_right (Nat.le_add_right _ _), Nat.add_sub_cancel_left, h.char]
  line := by
    have hline := h.line
    unfold lineAt at hline ⊢
    rw [List.take_length_add_append, List.take_length_add_append, newlines_append,
      newlines_append, hfront]
    omega

end SamePlace

namespace Edit

variable {edit : Edit} {i j : Nat}

theorem newlines_after (h : edit.KeepsLines) : newlines edit.after = newlines edit.before := by
  obtain ⟨changes, tail⟩ := edit
  induction changes with
  | nil => rfl
  | cons change changes ih =>
      obtain ⟨hchange, hchanges⟩ := List.forall_mem_cons.mp h
      have hrest := ih hchanges
      simp only [before, after, List.flatMap_cons, newlines_append] at hrest ⊢
      omega

/-- An untouched character stays on its line. -/
theorem samePlace_carry (h : edit.KeepsLines) (hcarry : edit.carry i = some j) :
    SamePlace edit.before i edit.after j := by
  obtain ⟨changes, tail⟩ := edit
  induction changes generalizing i j with
  | nil =>
      cases hcarry
      exact ⟨rfl, rfl⟩
  | cons change changes ih =>
      obtain ⟨hchange, hchanges⟩ := List.forall_mem_cons.mp h
      have hbefore : before ⟨change :: changes, tail⟩ =
          change.kept ++ change.old ++ before ⟨changes, tail⟩ := by
        simp only [before, List.flatMap_cons, List.append_assoc]
      have hafter : after ⟨change :: changes, tail⟩ =
          change.kept ++ change.new ++ after ⟨changes, tail⟩ := by
        simp only [after, List.flatMap_cons, List.append_assoc]
      have hfront : newlines (change.kept ++ change.new) =
          newlines (change.kept ++ change.old) := by
        rw [newlines_append, newlines_append, hchange]
      rw [hbefore, hafter]
      change carryOver (change :: changes) i = some j at hcarry
      unfold carryOver at hcarry
      split at hcarry
      · rename_i hi
        cases hcarry
        refine ⟨?_, congrArg (newlines · + 1) ?_⟩
        · rw [List.append_assoc, List.append_assoc, List.getElem?_append_left hi,
            List.getElem?_append_left hi]
        · rw [List.append_assoc, List.append_assoc,
            List.take_append_of_le_length (Nat.le_of_lt hi),
            List.take_append_of_le_length (Nat.le_of_lt hi)]
      · split at hcarry
        · cases hcarry
        · rename_i hi
          obtain ⟨k, hk, rfl⟩ := Option.map_eq_some_iff.mp hcarry
          have hplace := (ih hchanges hk).append hfront
          rw [List.length_append, List.length_append] at hplace
          have hi' : change.kept.length + change.old.length +
              (i - (change.kept.length + change.old.length)) = i := by omega
          rwa [hi'] at hplace

end Edit

/-! ## One edit after the other -/

/-- Where a character stands behind the edits, if none of them touches it. -/
def carryAll : List Edit → Nat → Option Nat
  | [], i => some i
  | edit :: edits, i => (edit.carry i).bind (carryAll edits)

/-- Each edit starts with the text of the one before it, the first with the one text, and the
last one ends with the other. -/
def Linked (text : List Char) : List Edit → List Char → Prop
  | [], text' => text = text'
  | edit :: edits, text' => edit.before = text ∧ Linked edit.after edits text'

namespace Linked

variable {text text' text'' : List Char} {edits edits' : List Edit}

theorem append (h : Linked text edits text') (h' : Linked text' edits' text'') :
    Linked text (edits ++ edits') text'' := by
  induction edits generalizing text with
  | nil => exact (show text = text' from h) ▸ h'
  | cons edit edits ih => exact ⟨h.1, ih h.2⟩

/-- Edits that keep lines keep them together. -/
theorem keepsLines (h : Linked text edits text') (hedits : ∀ edit ∈ edits, edit.KeepsLines) :
    newlines text' = newlines text ∧
      ∀ i j, carryAll edits i = some j → SamePlace text i text' j := by
  induction edits generalizing text with
  | nil =>
      cases h
      refine ⟨rfl, fun i j hcarry => ?_⟩
      cases hcarry
      exact ⟨rfl, rfl⟩
  | cons edit edits ih =>
      obtain ⟨hedit, hedits⟩ := List.forall_mem_cons.mp hedits
      obtain ⟨rfl, hrest⟩ := h
      obtain ⟨hcount, hcarried⟩ := ih hrest hedits
      refine ⟨hcount.trans (Edit.newlines_after hedit), fun i j hcarry => ?_⟩
      obtain ⟨k, hk, hcarry⟩ := Option.bind_eq_some_iff.mp hcarry
      exact (Edit.samePlace_carry hedit hk).trans (hcarried k j hcarry)

end Linked

/-! ## Lines that are blanked -/

/-- A text without newlines in front makes the first line longer. -/
theorem splitLines_front {line rest first : List Char} {others : List (List Char)}
    (hline : '\n' ∉ line) (hrest : splitLines rest = first :: others) :
    splitLines (line ++ rest) = (line ++ first) :: others := by
  induction line with
  | nil => exact hrest
  | cons c line ih =>
      have hc := List.ne_of_not_mem_cons hline
      rw [List.cons_append, splitLines, if_neg (Ne.symm hc),
        ih (List.not_mem_of_not_mem_cons hline)]
      rfl

/-- The lines of the text are the lines it was made of. -/
theorem splitLines_joinLines {lines : List (List Char)} (hne : lines ≠ [])
    (hlines : ∀ line ∈ lines, '\n' ∉ line) : splitLines (joinLines lines) = lines := by
  induction lines with
  | nil => exact absurd rfl hne
  | cons line lines ih =>
      obtain ⟨hline, hlines⟩ := List.forall_mem_cons.mp hlines
      cases lines with
      | nil =>
          have hlone : splitLines (line ++ []) = [line ++ []] := splitLines_front hline rfl
          rwa [List.append_nil] at hlone
      | cons next lines =>
          have h : splitLines ('\n' :: joinLines (next :: lines)) = [] :: next :: lines := by
            rw [splitLines, if_pos rfl, ih (List.cons_ne_nil _ _) hlines]
          have hfront : splitLines (line ++ '\n' :: joinLines (next :: lines)) =
              (line ++ []) :: next :: lines := splitLines_front hline h
          rwa [List.append_nil] at hfront

theorem newline_notMem_of_mem_splitLines {text line : List Char} (h : line ∈ splitLines text) :
    '\n' ∉ line := by
  induction text generalizing line with
  | nil =>
      cases List.mem_singleton.mp h
      exact List.not_mem_nil
  | cons c rest ih =>
      unfold splitLines at h
      split at h
      · rcases List.mem_cons.mp h with rfl | h
        · exact List.not_mem_nil
        · exact ih h
      · rename_i hc
        split at h
        · cases List.mem_singleton.mp h
          exact fun h => hc (List.mem_singleton.mp h).symm
        · rename_i first others hrest
          rcases List.mem_cons.mp h with rfl | h
          · rw [List.mem_cons, not_or]
            exact ⟨Ne.symm hc, ih (hrest ▸ List.mem_cons_self)⟩
          · exact ih (hrest ▸ List.mem_cons_of_mem _ h)

/-- The change of a line into another one, and of nothing if it stays. -/
def lineChange (line line' : List Char) : Change :=
  if line' = line then ⟨line, [], []⟩ else ⟨[], line, line'⟩

/-- The changes of lines into others, the newlines between them being kept. -/
def lineChanges : List (List Char × List Char) → List Change
  | [] => []
  | [(line, line')] => [lineChange line line']
  | (line, line') :: next :: rest =>
    lineChange line line' :: ⟨['\n'], [], []⟩ :: lineChanges (next :: rest)

theorem flatMap_lineChanges {piece : Change → List Char}
    {line : List Char × List Char → List Char}
    (hline : ∀ pair, (lineChange pair.1 pair.2).kept ++ piece (lineChange pair.1 pair.2) =
      line pair)
    (hbreak : piece ⟨['\n'], [], []⟩ = []) (lines : List (List Char × List Char)) :
    (lineChanges lines).flatMap (fun change => change.kept ++ piece change) =
      joinLines (lines.map line) := by
  induction lines with
  | nil => rfl
  | cons pair lines ih =>
      cases lines with
      | nil => simp [lineChanges, joinLines, hline pair]
      | cons next lines =>
          simp only [List.map_cons] at ih
          simp [lineChanges, joinLines, hbreak, ih, ← hline pair]

theorem before_lineChanges (lines : List (List Char × List Char)) :
    (⟨lineChanges lines, []⟩ : Edit).before = joinLines (lines.map Prod.fst) := by
  refine (List.append_nil _).trans (flatMap_lineChanges (fun pair => ?_) rfl lines)
  unfold lineChange
  split <;> simp

theorem after_lineChanges (lines : List (List Char × List Char)) :
    (⟨lineChanges lines, []⟩ : Edit).after = joinLines (lines.map Prod.snd) := by
  refine (List.append_nil _).trans (flatMap_lineChanges (fun pair => ?_) rfl lines)
  unfold lineChange
  split <;> simp_all

/-- As many lines, each of which is the same as before or has been made empty. -/
structure Blanks (lines lines' : List (List Char)) : Prop where
  length : lines'.length = lines.length
  lines : ∀ pair ∈ lines.zip lines', pair.2 = pair.1 ∨ pair.2 = []

namespace Blanks

variable {lines lines' : List (List Char)}

theorem refl (lines : List (List Char)) : Blanks lines lines := by
  refine ⟨rfl, fun pair hpair => Or.inl ?_⟩
  induction lines with
  | nil => cases hpair
  | cons line lines ih =>
      rcases List.mem_cons.mp hpair with rfl | hpair
      · rfl
      · exact ih hpair

theorem set (h : Blanks lines lines') (k : Nat) : Blanks lines (lines'.set k []) := by
  refine ⟨(List.length_set).trans h.length, fun pair hpair => ?_⟩
  have hlines := h.lines
  clear h
  induction lines generalizing lines' k with
  | nil => cases hpair
  | cons line lines ih =>
      cases lines' with
      | nil => cases hpair
      | cons line' lines' =>
          obtain ⟨hline, hlines⟩ := List.forall_mem_cons.mp hlines
          cases k with
          | zero =>
              rcases List.mem_cons.mp hpair with rfl | hpair
              · exact Or.inr rfl
              · exact hlines pair hpair
          | succ k =>
              rcases List.mem_cons.mp hpair with rfl | hpair
              · exact hline
              · exact ih k hpair hlines

theorem mem (h : Blanks lines lines') {line : List Char} (hline : line ∈ lines') :
    line ∈ lines ∨ line = [] := by
  rw [← List.map_snd_zip (Nat.le_of_eq h.length)] at hline
  obtain ⟨pair, hpair, rfl⟩ := List.mem_map.mp hline
  refine (h.lines pair hpair).imp_left fun hsame => ?_
  rw [hsame]
  exact (List.of_mem_zip hpair).1

/-- Blanked lines as changes: none of them has a newline. -/
theorem keepsLines (h : Blanks lines lines') (hlines : ∀ line ∈ lines, '\n' ∉ line) :
    (⟨lineChanges (lines.zip lines'), []⟩ : Edit).KeepsLines := by
  have hpairs : ∀ pair ∈ lines.zip lines',
      newlines (lineChange pair.1 pair.2).new = newlines (lineChange pair.1 pair.2).old := by
    intro pair hpair
    unfold lineChange
    split
    · rfl
    · rename_i hne
      rw [(h.lines pair hpair).resolve_left hne]
      exact (newlines_eq_zero.mpr (hlines _ (List.of_mem_zip hpair).1)).symm
  generalize lines.zip lines' = pairs at hpairs
  change ∀ change ∈ lineChanges pairs, newlines change.new = newlines change.old
  induction pairs with
  | nil => exact List.forall_mem_nil _
  | cons pair pairs ih =>
      obtain ⟨hpair, hpairs⟩ := List.forall_mem_cons.mp hpairs
      cases pairs with
      | nil => exact List.forall_mem_singleton.mpr hpair
      | cons next pairs =>
          exact List.forall_mem_cons.mpr ⟨hpair, List.forall_mem_cons.mpr ⟨rfl, ih hpairs⟩⟩

end Blanks

end StepTrace.Text

namespace StepTrace.Lowering

open Text

/-! ## Rules as edits -/

/-- What a rule does to a text. -/
def Rule.edit (rule : Rule) (text : List Char) : Edit where
  changes := (rule.pattern.cuts text).found.map fun (before, m) =>
    ⟨before, m.text, rule.replace m⟩
  tail := (rule.pattern.cuts text).tail

theorem Rule.before_edit (rule : Rule) (text : List Char) : (rule.edit text).before = text := by
  unfold Edit.before Rule.edit
  rw [List.flatMap_map]
  exact Pattern.flatMap_cuts rule.pattern text

theorem Rule.after_edit (rule : Rule) (text : List Char) :
    (rule.edit text).after = rule.apply text := by
  unfold Edit.after Rule.edit
  rw [List.flatMap_map]
  rfl

/-- The rules one after the other, each with the text that it finds. -/
def applications : List Rule → List Char → List (Rule × List Char)
  | [], _ => []
  | rule :: rules, text => (rule, text) :: applications rules (rule.apply text)

/-- The applications of all rounds of a pass. -/
def Pass.rounds (pass : Pass) : Nat → List Char → List (Rule × List Char)
  | 0, _ => []
  | rounds + 1, text =>
    let next := pass.once text
    applications pass.rules text ++
      if next = text || byteLength next ≥ byteLength text then [] else pass.rounds rounds next

/-- The applications of the rules of a pass. -/
def Pass.applications (pass : Pass) (text : List Char) : List (Rule × List Char) :=
  if pass.untilStable then pass.rounds maxRounds text
  else StepTrace.Lowering.applications pass.rules text

/-- The applications of the rules of passes. -/
def passApplications : List Pass → List Char → List (Rule × List Char)
  | [], _ => []
  | pass :: passes, text => pass.applications text ++ passApplications passes (pass.run text)

namespace Ruleset

/-- All applications of rules to a program text. -/
def applications (rules : Ruleset) (text : List Char) : List (Rule × List Char) :=
  passApplications rules.passes text

/-- The text behind all passes. -/
def rewritten (rules : Ruleset) (text : List Char) : List Char :=
  rules.passes.foldl (fun text pass => pass.run text) text

/-- The text behind all passes and without the class around the program, in front of which
only the call of the entry function is left to do. -/
def lowered (rules : Ruleset) (text : List Char) : List Char :=
  if rules.unwrapEntryClass then unwrapClass (rules.rewritten text) else rules.rewritten text

theorem run_eq (rules : Ruleset) (text : List Char) :
    rules.run text = match rules.entryFunction with
      | some name => callEntry name (rules.lowered text)
      | none => rules.lowered text :=
  rfl

end Ruleset

/-! ## The edits of a run -/

/-- The class around a program as lines that are blanked. -/
def unwrapEdit (text : List Char) : Edit :=
  ⟨lineChanges ((splitLines text).zip (unwrapLines (splitLines text))), []⟩

theorem before_unwrapEdit (text : List Char) : (unwrapEdit text).before = text := by
  unfold unwrapEdit
  rw [before_lineChanges, List.map_fst_zip (Nat.le_of_eq (length_unwrapLines _).symm),
    joinLines_splitLines]

theorem after_unwrapEdit (text : List Char) : (unwrapEdit text).after = unwrapClass text := by
  unfold unwrapEdit
  rw [after_lineChanges, List.map_snd_zip (Nat.le_of_eq (length_unwrapLines _))]
  rfl

theorem blanks_unwrapLines (lines : List (List Char)) : Blanks lines (unwrapLines lines) := by
  unfold unwrapLines
  split
  · dsimp only
    split
    · exact .refl lines
    · exact ((Blanks.refl lines).set _).set _
  · exact .refl lines

/-- Unwrapping blanks lines and does nothing else. -/
theorem blanks_unwrapClass (text : List Char) :
    Blanks (splitLines text) (splitLines (unwrapClass text)) := by
  have hblanks := blanks_unwrapLines (splitLines text)
  have hne : unwrapLines (splitLines text) ≠ [] := by
    rw [← List.length_pos_iff, hblanks.length]
    exact List.length_pos_iff.mpr (splitLines_ne_nil text)
  have hlines : ∀ line ∈ unwrapLines (splitLines text), '\n' ∉ line := by
    intro line hline
    rcases hblanks.mem hline with h | rfl
    · exact newline_notMem_of_mem_splitLines h
    · exact List.not_mem_nil
  rw [unwrapClass, splitLines_joinLines hne hlines]
  exact hblanks

theorem keepsLines_unwrapEdit (text : List Char) : (unwrapEdit text).KeepsLines :=
  (blanks_unwrapLines _).keepsLines fun _ => newline_notMem_of_mem_splitLines

/-- The edits that lead from a program text to the lowered one. -/
def Ruleset.edits (rules : Ruleset) (text : List Char) : List Edit :=
  (rules.applications text).map (fun application => application.1.edit application.2) ++
    if rules.unwrapEntryClass then [unwrapEdit (rules.rewritten text)] else []

theorem linked_applications (rules : List Rule) (text : List Char) :
    Linked text ((applications rules text).map fun application =>
      application.1.edit application.2)
      (rules.foldl (fun text rule => rule.apply text) text) := by
  induction rules generalizing text with
  | nil => rfl
  | cons rule rules ih =>
      refine ⟨rule.before_edit text, ?_⟩
      rw [rule.after_edit]
      exact ih _

theorem Pass.linked_rounds (pass : Pass) (rounds : Nat) (text : List Char) :
    Linked text ((pass.rounds rounds text).map fun application =>
      application.1.edit application.2) (pass.repeat rounds text) := by
  induction rounds generalizing text with
  | zero => rfl
  | succ rounds ih =>
      have honce := StepTrace.Lowering.linked_applications pass.rules text
      unfold Pass.rounds Pass.repeat
      dsimp only
      rw [List.map_append]
      refine honce.append ?_
      split
      · rfl
      · exact ih _

theorem Pass.linked_applications (pass : Pass) (text : List Char) :
    Linked text ((pass.applications text).map fun application =>
      application.1.edit application.2) (pass.run text) := by
  unfold Pass.applications Pass.run
  split
  · exact pass.linked_rounds _ text
  · exact StepTrace.Lowering.linked_applications pass.rules text

theorem linked_passApplications (passes : List Pass) (text : List Char) :
    Linked text ((passApplications passes text).map fun application =>
      application.1.edit application.2)
      (passes.foldl (fun text pass => pass.run text) text) := by
  induction passes generalizing text with
  | nil => rfl
  | cons pass passes ih =>
      unfold passApplications
      rw [List.map_append]
      exact (pass.linked_applications text).append (ih _)

theorem Ruleset.linked_edits (rules : Ruleset) (text : List Char) :
    Linked text (rules.edits text) (rules.lowered text) := by
  refine (linked_passApplications rules.passes text).append ?_
  unfold Ruleset.lowered
  split
  · exact ⟨before_unwrapEdit _, after_unwrapEdit _⟩
  · rfl

theorem mem_of_mem_applications {list : List Rule} {text : List Char}
    {application : Rule × List Char} (h : application ∈ applications list text) :
    application.1 ∈ list := by
  induction list generalizing text with
  | nil => cases h
  | cons rule list ih =>
      rcases List.mem_cons.mp h with rfl | h
      · exact List.mem_cons_self
      · exact List.mem_cons_of_mem _ (ih h)

theorem Pass.mem_of_mem_rounds {pass : Pass} {rounds : Nat} {text : List Char}
    {application : Rule × List Char} (h : application ∈ pass.rounds rounds text) :
    application.1 ∈ pass.rules := by
  induction rounds generalizing text with
  | zero => cases h
  | succ rounds ih =>
      rcases List.mem_append.mp h with h | h
      · exact mem_of_mem_applications h
      · split at h
        · cases h
        · exact ih h

/-- What is applied are rules of the passes. -/
theorem exists_pass_of_mem_applications {passes : List Pass} {text : List Char}
    {application : Rule × List Char} (h : application ∈ passApplications passes text) :
    ∃ pass ∈ passes, application.1 ∈ pass.rules := by
  induction passes generalizing text with
  | nil => cases h
  | cons pass passes ih =>
      rcases List.mem_append.mp h with h | h
      · unfold Pass.applications at h
        split at h
        · exact ⟨pass, List.mem_cons_self, pass.mem_of_mem_rounds h⟩
        · exact ⟨pass, List.mem_cons_self, mem_of_mem_applications h⟩
      · obtain ⟨pass', hpass', hrule⟩ := ih h
        exact ⟨pass', List.mem_cons_of_mem _ hpass', hrule⟩

end StepTrace.Lowering
