import StepTrace.Lowering.Shared
import StepTrace.Proofs.Edits

/-!
# The newlines of matches

Most patterns describe text without newlines. In the others a newline can only stand inside
certain groups, so that a replacement with those groups in it, each once, has all newlines of
the match.

* `Pattern.lineFree`, `Pattern.lineGroups`: what a pattern's form says about newlines;
  `Match.Fits.newlines_text` is why it can be relied on.
* `Rule.KeepsLines`: the replacement has the newlines of the match. `keepsLines_template` reads
  it off the pieces of a template, and `keepsLines_of_lineFree` serves the other rules.
-/

namespace StepTrace.Pattern

open Text

/-! ## Patterns -/

/-- Whether the texts of a pattern have no newlines. -/
def lineFree : Pattern → Bool
  | .empty | .anchor _ => true
  | .char test | .run _ test | .reluctantRun _ test => ! test '\n'
  | .seq first second | .alt first second => first.lineFree && second.lineFree
  | .many body | .group _ body => body.lineFree

/-- The numbers of the groups of a pattern, from the left. -/
def numbers : Pattern → List Nat
  | .empty | .anchor _ | .char _ | .run _ _ | .reluctantRun _ _ => []
  | .seq first second | .alt first second => first.numbers ++ second.numbers
  | .many body => body.numbers
  | .group number body => number :: body.numbers

/-- The groups in which newlines of a pattern's texts can stand, if those always take part and
have no groups inside. -/
def lineGroups : Pattern → Option (List Nat)
  | .seq first second =>
    match first.lineGroups, second.lineGroups with
    | some numbers, some numbers' => some (numbers ++ numbers')
    | _, _ => none
  | .group number body =>
    if body.lineFree then some []
    else if body.numbers = [] then some [number] else none
  | pattern => if pattern.lineFree then some [] else none

namespace Spells

variable {pattern : Pattern} {text : List Char} {groups : List (Nat × List Char)}

theorem newline_notMem (h : Spells pattern text groups) (hfree : pattern.lineFree = true) :
    '\n' ∉ text := by
  have htest {test : Char → Bool} {text : List Char} (hfree : (! test '\n') = true)
      (htext : ∀ c ∈ text, test c = true) : '\n' ∉ text := by
    intro hmem
    rw [htext _ hmem] at hfree
    cases hfree
  induction h with
  | empty | anchor | manyNone => exact List.not_mem_nil
  | char hc => exact htest hfree (List.forall_mem_singleton.mpr hc)
  | run _ htext | reluctantRun _ htext => exact htest hfree htext
  | seq _ _ ih ih' =>
      obtain ⟨hfirst, hsecond⟩ := Bool.and_eq_true_iff.mp hfree
      exact fun hmem => (List.mem_append.mp hmem).elim (ih hfirst) (ih' hsecond)
  | altFirst _ ih => exact ih (Bool.and_eq_true_iff.mp hfree).1
  | altSecond _ ih => exact ih (Bool.and_eq_true_iff.mp hfree).2
  | manyMore _ _ ih ih' => exact fun hmem => (List.mem_append.mp hmem).elim (ih hfree) (ih' hfree)
  | group _ ih => exact ih hfree

theorem number_mem (h : Spells pattern text groups) : ∀ g ∈ groups, g.1 ∈ pattern.numbers := by
  induction h with
  | empty | char | run | reluctantRun | anchor | manyNone => exact List.forall_mem_nil _
  | seq _ _ ih ih' =>
      refine List.forall_mem_append.mpr ⟨fun g hg => ?_, fun g hg => ?_⟩
      · exact List.mem_append_right _ (ih' g hg)
      · exact List.mem_append_left _ (ih g hg)
  | altFirst _ ih => exact fun g hg => List.mem_append_left _ (ih g hg)
  | altSecond _ ih => exact fun g hg => List.mem_append_right _ (ih g hg)
  | manyMore _ _ ih ih' => exact List.forall_mem_append.mpr ⟨ih', ih⟩
  | group _ ih =>
      exact List.forall_mem_cons.mpr ⟨List.mem_cons_self, fun g hg =>
        List.mem_cons_of_mem _ (ih g hg)⟩

theorem lookup_eq_none (h : Spells pattern text groups) {k : Nat} (hk : k ∉ pattern.numbers) :
    groups.lookup k = none := by
  rw [List.lookup_eq_none_iff]
  intro g hg
  refine bne_iff_ne.mpr fun heq => hk ?_
  rw [heq]
  exact h.number_mem g hg

end Spells

theorem lineFree_of_check {pattern : Pattern} {ks : List Nat}
    (h : (if pattern.lineFree then some [] else none) = some ks) :
    pattern.lineFree = true ∧ ks = [] := by
  split at h
  · rename_i hfree
    cases h
    exact ⟨hfree, rfl⟩
  · cases h

theorem mem_numbers_of_mem_lineGroups {pattern : Pattern} {ks : List Nat}
    (h : pattern.lineGroups = some ks) : ∀ k ∈ ks, k ∈ pattern.numbers := by
  induction pattern generalizing ks with
  | empty | char | run | reluctantRun | anchor | alt | many =>
      obtain ⟨-, rfl⟩ := lineFree_of_check h
      exact List.forall_mem_nil _
  | seq first second ih ih' =>
      unfold lineGroups at h
      split at h
      · rename_i hfirst hsecond
        cases h
        refine List.forall_mem_append.mpr ⟨fun k hk => ?_, fun k hk => ?_⟩
        · exact List.mem_append_left _ (ih hfirst k hk)
        · exact List.mem_append_right _ (ih' hsecond k hk)
      · cases h
  | group number body =>
      unfold lineGroups at h
      split at h
      · cases h
        exact List.forall_mem_nil _
      · split at h
        · cases h
          exact List.forall_mem_singleton.mpr List.mem_cons_self
        · cases h

/-- The newlines of a text are those that the groups with the numbers have captured, and the other
groups have captured none. -/
structure LinesIn (text : List Char) (groups : List (Nat × List Char)) (ks : List Nat) : Prop where
  count : newlines text = newlines (ks.flatMap fun k => (groups.lookup k).getD [])
  others : ∀ k, k ∉ ks → '\n' ∉ (groups.lookup k).getD []

namespace Spells

variable {first second body : Pattern} {text text' : List Char}
  {groups groups' : List (Nat × List Char)} {ks ks' : List Nat}

/-- Where the text has no newline, no group has one. -/
theorem linesIn_nil (h : Spells body text groups) (hfree : body.lineFree = true) :
    LinesIn text groups [] := by
  have htext := h.newline_notMem hfree
  refine ⟨newlines_eq_zero.mpr htext, fun k _ hmem => ?_⟩
  cases hlookup : groups.lookup k with
  | none =>
      rw [hlookup] at hmem
      cases hmem
  | some captured =>
      rw [hlookup] at hmem
      obtain ⟨front, back, rfl, -⟩ := List.lookup_eq_some_iff.mp hlookup
      exact htext ((h.infix_of_mem (k, captured) (by simp)).subset hmem)

/-- A number belongs to one of the two parts, whose captures are then found. -/
theorem linesIn_append (h : Spells first text groups) (h' : Spells second text' groups')
    (hks : ∀ k ∈ ks, k ∈ first.numbers) (hks' : ∀ k ∈ ks', k ∈ second.numbers)
    (hapart : ∀ k ∈ first.numbers, ∀ k' ∈ second.numbers, k ≠ k')
    (hlines : LinesIn text groups ks) (hlines' : LinesIn text' groups' ks') :
    LinesIn (text ++ text') (groups' ++ groups) (ks ++ ks') := by
  have hleft : (ks.flatMap fun k => ((groups' ++ groups).lookup k).getD []) =
      ks.flatMap fun k => (groups.lookup k).getD [] := by
    refine congrArg List.flatten (List.map_congr_left fun k hk => ?_)
    rw [List.lookup_append, h'.lookup_eq_none fun hk' => hapart k (hks k hk) k hk' rfl]
    rfl
  have hright : (ks'.flatMap fun k => ((groups' ++ groups).lookup k).getD []) =
      ks'.flatMap fun k => (groups'.lookup k).getD [] := by
    refine congrArg List.flatten (List.map_congr_left fun k hk => ?_)
    rw [List.lookup_append, h.lookup_eq_none fun hk' => hapart k hk' k (hks' k hk) rfl,
      Option.or_none]
  refine ⟨?_, fun k hk => ?_⟩
  · rw [newlines_append, List.flatMap_append, newlines_append, hleft, hright, hlines.count,
      hlines'.count]
  · obtain ⟨hk, hk'⟩ := not_or.mp (mt List.mem_append.mpr hk)
    rw [List.lookup_append]
    cases hlookup : groups'.lookup k with
    | none => exact hlines.others k hk
    | some captured =>
        have := hlines'.others k hk'
        rwa [hlookup] at this

/-- A group with none inside captures the whole text. -/
theorem linesIn_singleton (h : Spells body text groups) (hnone : body.numbers = [])
    (number : Nat) : LinesIn text ((number, text) :: groups) [number] := by
  have hgroups : groups = [] := by
    refine List.eq_nil_iff_forall_not_mem.mpr fun g hg => ?_
    have := h.number_mem g hg
    rw [hnone] at this
    cases this
  subst hgroups
  refine ⟨by simp, fun k hk => ?_⟩
  have hne : (k == number) = false :=
    beq_eq_false_iff_ne.mpr fun heq => hk (List.mem_singleton.mpr heq)
  simp [List.lookup_cons, hne]

end Spells

theorem Spells.linesIn {pattern : Pattern} {text : List Char}
    {groups : List (Nat × List Char)} (h : Spells pattern text groups) {ks : List Nat}
    (hks : pattern.lineGroups = some ks) (hnodup : pattern.numbers.Nodup) :
    LinesIn text groups ks := by
  induction pattern generalizing text groups ks with
  | empty | char | run | reluctantRun | anchor | alt | many =>
      obtain ⟨hfree, rfl⟩ := lineFree_of_check hks
      exact h.linesIn_nil hfree
  | seq first second ih ih' =>
      cases h with
      | seq h h' =>
        unfold lineGroups at hks
        split at hks
        · rename_i numbers numbers' hfirst hsecond
          cases hks
          obtain ⟨hnodup, hnodup', hapart⟩ := List.nodup_append.mp hnodup
          exact h.linesIn_append h' (mem_numbers_of_mem_lineGroups hfirst)
            (mem_numbers_of_mem_lineGroups hsecond) hapart (ih h hfirst hnodup)
            (ih' h' hsecond hnodup')
        · cases hks
  | group number body =>
      cases h with
      | group h =>
        unfold lineGroups at hks
        split at hks
        · rename_i hbody
          cases hks
          exact (Spells.group h).linesIn_nil hbody
        · split at hks
          · rename_i hnone
            cases hks
            exact h.linesIn_singleton hnone number
          · cases hks

/-! ## Matches -/

namespace Match.Fits

variable {m : Match} {pattern : Pattern}

theorem infix_group (h : m.Fits pattern) (k : Nat) : m.group k <:+: m.text := by
  obtain ⟨groups, hspells, hgroups⟩ := h
  unfold Match.group Match.group?
  cases hlookup : m.groups.lookup k with
  | none => exact List.nil_infix
  | some captured =>
      obtain ⟨front, back, heq, -⟩ := List.lookup_eq_some_iff.mp hlookup
      have hmem : (k, captured) ∈ (0, m.text) :: groups := by
        rw [← hgroups, heq]
        simp
      rcases List.mem_cons.mp hmem with heq | hmem
      · cases heq
        exact List.infix_rfl
      · exact hspells.infix_of_mem _ hmem

theorem newline_notMem_text (h : m.Fits pattern) (hfree : pattern.lineFree = true) :
    '\n' ∉ m.text := by
  obtain ⟨groups, hspells, -⟩ := h
  exact hspells.newline_notMem hfree

theorem newline_notMem_group (h : m.Fits pattern) (hfree : pattern.lineFree = true) (k : Nat) :
    '\n' ∉ m.group k :=
  fun hmem => h.newline_notMem_text hfree ((h.infix_group k).subset hmem)

/-- The newlines of a match stand in the groups that can have some. -/
theorem newlines_text (h : m.Fits pattern) {ks : List Nat} (hks : pattern.lineGroups = some ks)
    (hnumbers : (0 :: pattern.numbers).Nodup) :
    newlines m.text = newlines (ks.flatMap m.group) ∧
      ∀ k, k ≠ 0 → k ∉ ks → '\n' ∉ m.group k := by
  obtain ⟨groups, hspells, hgroups⟩ := h
  obtain ⟨hzero, hnodup⟩ := List.nodup_cons.mp hnumbers
  obtain ⟨hcount, hothers⟩ := hspells.linesIn hks hnodup
  -- group zero is none of the pattern's
  have hgroup (k : Nat) (hk : k ≠ 0) : m.group k = (groups.lookup k).getD [] := by
    unfold Match.group Match.group?
    rw [hgroups, List.lookup_cons, beq_false_of_ne hk]
  refine ⟨?_, fun k hk hnone => ?_⟩
  · rw [hcount]
    refine congrArg (newlines ·.flatten) (List.map_congr_left fun k hk => ?_)
    refine (hgroup k fun heq => hzero ?_).symm
    exact heq ▸ mem_numbers_of_mem_lineGroups hks k hk
  · rw [hgroup k hk]
    exact hothers k hnone

end Match.Fits

end StepTrace.Pattern

namespace StepTrace.Lowering

open Text Pattern

/-! ## Rules -/

/-- Every match of the rule is replaced by a text with as many newlines. -/
def Rule.KeepsLines (rule : Rule) : Prop :=
  ∀ m : Match, m.Fits rule.pattern → newlines (rule.replace m) = newlines m.text

theorem Rule.KeepsLines.edit {rule : Rule} (h : rule.KeepsLines) (text : List Char) :
    (rule.edit text).KeepsLines := by
  intro change hchange
  obtain ⟨cut, hcut, rfl⟩ := List.mem_map.mp hchange
  exact h cut.2 (fits_of_mem_cuts hcut)

/-- The groups that the pieces insert. -/
def insertedGroups (pieces : List Piece) : List Nat :=
  pieces.filterMap fun
    | .text _ => none
    | .group k => some k

/-- Whether the piece is a text without newlines or a group, but not the whole match. -/
def Piece.isPlain : Piece → Bool
  | .text s => ! s.toList.contains '\n'
  | .group k => k != 0

theorem newlines_fill {pieces : List Piece} {m : Match} {ks : List Nat}
    (hpieces : pieces.all Piece.isPlain = true)
    (hothers : ∀ k, k ≠ 0 → k ∉ ks → '\n' ∉ m.group k) :
    newlines (fill pieces m) =
      newlines (((insertedGroups pieces).filter ks.contains).flatMap m.group) := by
  induction pieces with
  | nil => rfl
  | cons piece pieces ih =>
      obtain ⟨hpiece, hpieces⟩ := Bool.and_eq_true_iff.mp hpieces
      have hrest := ih hpieces
      unfold fill at hrest ⊢
      rw [List.flatMap_cons, newlines_append, hrest]
      cases piece with
      | text s =>
          have hs : newlines s.toList = 0 :=
            newlines_eq_zero.mpr (by simpa [Piece.isPlain] using hpiece)
          rw [hs, Nat.zero_add]
          rfl
      | group k =>
          change newlines (m.group k) + _ =
            newlines (((k :: insertedGroups pieces).filter ks.contains).flatMap m.group)
          rw [List.filter_cons]
          split
          · rw [List.flatMap_cons, newlines_append]
          · rename_i hk
            have hnone := hothers k (bne_iff_ne.mp hpiece) fun hmem =>
              hk (List.contains_iff_mem.mpr hmem)
            rw [newlines_eq_zero.mpr hnone, Nat.zero_add]

/-- Whether each number is greater than the one before it, the first than the given one. -/
def isAscending : Nat → List Nat → Bool
  | _, [] => true
  | last, k :: ks => decide (last < k) && isAscending k ks

theorem lt_of_isAscending {last : Nat} {ks : List Nat} (h : isAscending last ks = true) :
    ∀ k ∈ ks, last < k := by
  induction ks generalizing last with
  | nil => exact List.forall_mem_nil _
  | cons k ks ih =>
      obtain ⟨hk, hks⟩ := Bool.and_eq_true_iff.mp h
      have hk := of_decide_eq_true hk
      exact List.forall_mem_cons.mpr ⟨hk, fun k' hk' => Nat.lt_trans hk (ih hks k' hk')⟩

theorem nodup_of_isAscending {last : Nat} {ks : List Nat} (h : isAscending last ks = true) :
    (last :: ks).Nodup := by
  induction ks generalizing last with
  | nil => exact List.nodup_cons.mpr ⟨List.not_mem_nil, List.nodup_nil⟩
  | cons k ks ih =>
      refine List.nodup_cons.mpr ⟨fun hmem => ?_, ih (Bool.and_eq_true_iff.mp h).2⟩
      exact Nat.lt_irrefl last (lt_of_isAscending h last hmem)

/-- Whether a template inserts the groups that can have newlines, each once and in their order,
and has no other newlines. -/
def insertsLines (pattern : Pattern) (pieces : List Piece) : Bool :=
  match pattern.lineGroups with
  | none => false
  | some ks =>
    isAscending 0 pattern.numbers && pieces.all Piece.isPlain &&
      decide ((insertedGroups pieces).filter ks.contains = ks)

theorem keepsLines_template {name : String} {pattern : Pattern} {pieces : List Piece}
    (h : insertsLines pattern pieces = true) : (Rule.template name pattern pieces).KeepsLines := by
  intro m hm
  unfold insertsLines at h
  split at h
  · cases h
  · rename_i ks hks
    obtain ⟨h, horder⟩ := Bool.and_eq_true_iff.mp h
    obtain ⟨hnumbers, hpieces⟩ := Bool.and_eq_true_iff.mp h
    obtain ⟨hcount, hothers⟩ := hm.newlines_text hks (nodup_of_isAscending hnumbers)
    have hfill := newlines_fill hpieces hothers
    rw [of_decide_eq_true horder] at hfill
    exact hfill.trans hcount.symm

/-- Where neither the matches nor the captured texts have newlines, it is enough that the
replacement adds none. -/
theorem keepsLines_of_lineFree {rule : Rule} (hfree : rule.pattern.lineFree = true)
    (hreplace : ∀ m : Match, (∀ k, '\n' ∉ m.group k) → '\n' ∉ m.text →
      '\n' ∉ rule.replace m) : rule.KeepsLines := by
  intro m hm
  have htext := hm.newline_notMem_text hfree
  rw [newlines_eq_zero.mpr htext, newlines_eq_zero]
  exact hreplace m (hm.newline_notMem_group hfree) htext

end StepTrace.Lowering
