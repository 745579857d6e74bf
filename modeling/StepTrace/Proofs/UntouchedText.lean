import StepTrace.Proofs.Edits
import StepTrace.Proofs.LiteralSearch

/-!
# Text that lowering leaves alone

Where all rules but one leave a text as it is, the passes have the effect of that rule alone
(`rewritten_eq_apply`). The two steps behind the passes look for a line with a closing brace and
for a declaration of the entry function, and do nothing to a text without them
(`unwrapClass_eq_self`, `callEntry_eq_self`).
-/

namespace StepTrace.Lowering

open Text Pattern

/-! ## Rules that do nothing -/

section

variable {text : List Char}

/-- The rule leaves the text that it finds as it is. -/
def LeavesAlone (application : Rule × List Char) : Prop :=
  application.1.apply application.2 = application.2

theorem foldl_eq_self {list : List Rule}
    (h : ∀ application ∈ applications list text, LeavesAlone application) :
    list.foldl (fun text rule => rule.apply text) text = text := by
  induction list with
  | nil => rfl
  | cons rule list ih =>
      obtain ⟨hrule, hlist⟩ := List.forall_mem_cons.mp h
      have hrule : rule.apply text = text := hrule
      rw [hrule] at hlist
      rw [List.foldl_cons, hrule]
      exact ih hlist

/-- A pass that changes nothing when its rules are applied once changes nothing at all. -/
theorem Pass.run_of_once {pass : Pass} (h : pass.once text = text) : pass.run text = text := by
  unfold Pass.run
  split
  · change pass.repeat (63 + 1) text = text
    unfold Pass.repeat
    dsimp only
    rw [if_pos (Bool.or_eq_true_iff.mpr (Or.inl (decide_eq_true h))), h]
  · exact h

theorem Pass.run_eq_self {pass : Pass}
    (h : ∀ application ∈ pass.applications text, LeavesAlone application) :
    pass.run text = text := by
  refine Pass.run_of_once (foldl_eq_self ?_)
  unfold Pass.applications at h
  split at h
  · exact fun application happlication => h application (List.mem_append_left _ happlication)
  · exact h

theorem foldl_of_rules {list : List Rule} (h : ∀ rule ∈ list, rule.apply text = text) :
    list.foldl (fun text rule => rule.apply text) text = text := by
  induction list with
  | nil => rfl
  | cons rule list ih =>
      obtain ⟨hrule, hlist⟩ := List.forall_mem_cons.mp h
      rw [List.foldl_cons, hrule]
      exact ih hlist

theorem Pass.run_foldl (kind : PassKind) (list : List Rule) (text : List Char) :
    (⟨kind, list, false⟩ : Pass).run text = list.foldl (fun text rule => rule.apply text) text :=
  rfl

theorem Pass.run_of_rules {pass : Pass} (h : ∀ rule ∈ pass.rules, rule.apply text = text) :
    pass.run text = text :=
  Pass.run_of_once (foldl_of_rules h)

theorem foldl_of_passes {passes : List Pass} (h : ∀ pass ∈ passes, pass.run text = text) :
    passes.foldl (fun text pass => pass.run text) text = text := by
  induction passes with
  | nil => rfl
  | cons pass passes ih =>
      obtain ⟨hpass, hpasses⟩ := List.forall_mem_cons.mp h
      rw [List.foldl_cons, hpass]
      exact ih hpasses

theorem passes_eq_self {passes : List Pass}
    (h : ∀ application ∈ passApplications passes text, LeavesAlone application) :
    passes.foldl (fun text pass => pass.run text) text = text := by
  induction passes with
  | nil => rfl
  | cons pass passes ih =>
      obtain ⟨hpass, hpasses⟩ := List.forall_mem_append.mp h
      rw [Pass.run_eq_self hpass] at hpasses
      rw [List.foldl_cons, Pass.run_eq_self hpass]
      exact ih hpasses

theorem applications_append (front back : List Rule) (text : List Char) :
    applications (front ++ back) text =
      applications front text ++
        applications back (front.foldl (fun text rule => rule.apply text) text) := by
  induction front generalizing text with
  | nil => rfl
  | cons rule front ih => exact congrArg ((rule, text) :: ·) (ih _)

theorem passApplications_append (front back : List Pass) (text : List Char) :
    passApplications (front ++ back) text =
      passApplications front text ++
        passApplications back (front.foldl (fun text pass => pass.run text) text) := by
  induction front generalizing text with
  | nil => rfl
  | cons pass front ih =>
      rw [List.cons_append, passApplications, passApplications, ih, List.append_assoc]
      rfl

/-- If the other rules leave the texts that they find as they are, the passes have the effect
of the one rule. -/
theorem rewritten_eq_apply {rules : Ruleset} {rule : Rule} {before after : List Pass}
    {kind : PassKind} {front back : List Rule}
    (hpasses : rules.passes = before ++ ⟨kind, front ++ rule :: back, false⟩ :: after)
    (hbefore : ∀ pass ∈ before, ∀ other ∈ pass.rules, other.name ≠ rule.name)
    (hafter : ∀ pass ∈ after, ∀ other ∈ pass.rules, other.name ≠ rule.name)
    (hothers : ∀ other ∈ front ++ back, other.name ≠ rule.name)
    (h : ∀ application ∈ rules.applications text, application.1.name ≠ rule.name →
      LeavesAlone application) :
    rules.rewritten text = rule.apply text := by
  have hnamed {passes : List Pass} {text : List Char}
      (hnames : ∀ pass ∈ passes, ∀ other ∈ pass.rules, other.name ≠ rule.name)
      (h : ∀ application ∈ passApplications passes text, application.1.name ≠ rule.name →
        LeavesAlone application) : passes.foldl (fun text pass => pass.run text) text = text := by
    refine passes_eq_self fun application happlication => h application happlication ?_
    obtain ⟨pass, hpass, hrule⟩ := exists_pass_of_mem_applications happlication
    exact hnames pass hpass _ hrule
  have hlisted {list : List Rule} {text : List Char}
      (hnames : ∀ other ∈ list, other ∈ front ++ back)
      (h : ∀ application ∈ applications list text, application.1.name ≠ rule.name →
        LeavesAlone application) : list.foldl (fun text rule => rule.apply text) text = text := by
    refine foldl_eq_self fun application happlication => h application happlication ?_
    exact hothers _ (hnames _ (mem_of_mem_applications happlication))
  unfold Ruleset.applications at h
  unfold Ruleset.rewritten
  rw [hpasses, passApplications_append] at h
  obtain ⟨hfirst, hrest⟩ := List.forall_mem_append.mp h
  rw [hpasses, List.foldl_append, hnamed hbefore hfirst, List.foldl_cons]
  rw [hnamed hbefore hfirst] at hrest
  obtain ⟨hpass, hlast⟩ := List.forall_mem_append.mp hrest
  have hrun : (⟨kind, front ++ rule :: back, false⟩ : Pass).run text = rule.apply text := by
    have hpass : ∀ application ∈ applications (front ++ rule :: back) text,
        application.1.name ≠ rule.name → LeavesAlone application := hpass
    rw [applications_append] at hpass
    obtain ⟨hfront, hback⟩ := List.forall_mem_append.mp hpass
    have hsame := hlisted (fun other => List.mem_append_left _) hfront
    rw [hsame] at hback
    change (front ++ rule :: back).foldl (fun text rule => rule.apply text) text = _
    rw [List.foldl_append, hsame, List.foldl_cons]
    exact hlisted (fun other => List.mem_append_right _) (List.forall_mem_cons.mp hback).2
  rw [hrun] at hlast ⊢
  exact hnamed hafter hlast

/-! ## The steps behind the passes -/

theorem mem_of_mem_splitLines {line : List Char} (h : line ∈ splitLines text) :
    ∀ c ∈ line, c ∈ text := by
  induction text generalizing line with
  | nil =>
      cases List.mem_singleton.mp h
      exact List.forall_mem_nil _
  | cons d rest ih =>
      have hrest {line : List Char} (h : line ∈ splitLines rest) : ∀ c ∈ line, c ∈ d :: rest :=
        fun c hc => List.mem_cons_of_mem _ (ih h c hc)
      unfold splitLines at h
      split at h
      · rcases List.mem_cons.mp h with rfl | h
        · exact List.forall_mem_nil _
        · exact hrest h
      · split at h
        · cases List.mem_singleton.mp h
          exact List.forall_mem_singleton.mpr List.mem_cons_self
        · rename_i first others hlines
          rcases List.mem_cons.mp h with rfl | h
          · refine List.forall_mem_cons.mpr ⟨List.mem_cons_self, hrest ?_⟩
            rw [hlines]
            exact List.mem_cons_self
          · refine hrest ?_
            rw [hlines]
            exact List.mem_cons_of_mem _ h

/-- No class is unwrapped where no brace is closed. -/
theorem unwrapClass_eq_self (h : '}' ∉ text) : unwrapClass text = text := by
  have hnone : (splitLines text).reverse.findIdx? closesClass = none := by
    refine List.findIdx?_eq_none_iff.mpr fun line hline => Bool.eq_false_iff.mpr fun hcloses => ?_
    have hbrace : '}' ∈ trim line := of_decide_eq_true hcloses ▸ List.mem_singleton_self _
    exact h (mem_of_mem_splitLines (List.mem_reverse.mp hline) _
      ((infix_trim line).subset hbrace))
  unfold unwrapClass unwrapLines
  rw [hnone]
  split
  · rename_i heq
    cases heq
  · exact joinLines_splitLines text

theorem exists_last_of_spells_space {groups : List (Nat × List Char)}
    (h : Spells space text groups) :
    ∃ front blank, text = front ++ [blank] ∧ (blank = ' ' ∨ blank = '\t') := by
  cases h with
  | run hleast hblanks =>
      have hne : text ≠ [] := List.length_pos_iff.mp hleast
      refine ⟨text.dropLast, text.getLast hne, (List.dropLast_concat_getLast hne).symm, ?_⟩
      simpa [oneIn] using hblanks _ (List.getLast_mem hne)

/-- Between the word for a function and its name stands a blank. -/
theorem exists_blank_of_declares {c : Char} {name : String} {rest : List Char}
    (hname : name.toList = c :: rest) {groups : List (Nat × List Char)}
    (h : Spells (declares name) text groups) :
    ∃ blank, (blank = ' ' ∨ blank = '\t') ∧ [blank, c] <:+: text := by
  cases h with
  | seq hedge h => cases h with
    | seq hfunction h => cases h with
      | seq hspace h => cases h with
        | @seq _ _ _ more _ _ hmain h =>
          obtain ⟨rfl, -⟩ := eq_of_spells_exactly hmain
          obtain ⟨front, blank, rfl, hblank⟩ := exists_last_of_spells_space hspace
          refine ⟨blank, hblank, ?_⟩
          rw [hname]
          have hpiece : [blank, c] <:+: (front ++ [blank]) ++ (c :: rest ++ more) :=
            ⟨front, rest ++ more, by simp⟩
          exact (hpiece.trans (List.suffix_append _ _).isInfix).trans
            (List.suffix_append _ _).isInfix

/-- A pair of characters does not stand in a word without the first of them, nor at its end. -/
theorem not_pair_append {c d : Char} {word rest : List Char} (hword : c ∉ word)
    (hrest : ¬ [c, d] <:+: rest) : ¬ [c, d] <:+: word ++ rest := by
  induction word with
  | nil => exact hrest
  | cons first word ih =>
      rw [List.cons_append, List.infix_cons_iff, not_or]
      refine ⟨fun hfirst => ?_, ih (List.not_mem_of_not_mem_cons hword)⟩
      exact List.ne_of_not_mem_cons hword (List.cons_prefix_cons.mp hfirst).1

/-- Nothing is called where no blank stands in front of the name of the entry function. -/
theorem callEntry_eq_self {c : Char} {name : String} {rest : List Char}
    (hname : name.toList = c :: rest)
    (h : ∀ blank, blank = ' ' ∨ blank = '\t' → ¬ [blank, c] <:+: text) :
    callEntry name text = text := by
  have hnone : (declares name).occursIn text = false := by
    unfold Pattern.occursIn
    cases hfind : (declares name).find? text with
    | none => rfl
    | some m =>
        obtain ⟨⟨groups, hspells, -⟩, hmatch⟩ := fits_of_find? hfind
        obtain ⟨blank, hblank, hpiece⟩ := exists_blank_of_declares hname hspells
        exact absurd (hpiece.trans hmatch) (h blank hblank)
  unfold callEntry
  rw [hnone]
  rfl

end

end StepTrace.Lowering
