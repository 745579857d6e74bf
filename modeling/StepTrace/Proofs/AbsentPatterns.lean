import StepTrace.Proofs.LiteralSearch

/-!
# Patterns that a text does not have

A pattern that occurs nowhere in a text does not change it (`Absent.replaceAll`). Often that is so
because the pattern cannot do without a character that the text lacks, which can be computed from
the pattern and an alphabet (`isBlocked`).

* `Spells.exists_drop`: what the rest of a sequence spells.
-/

namespace StepTrace.Pattern

variable {pattern : Pattern} {text : List Char} {groups : List (Nat × List Char)}

/-! ## Patterns that do not occur -/

/-- The pattern occurs nowhere in the text. -/
def Absent (pattern : Pattern) (text : List Char) : Prop :=
  ∀ passed piece groups rest, text = passed ++ (piece ++ rest) →
    ¬ Occurs pattern passed.getLast? piece rest groups

theorem Absent.of_not_spells
    (h : ∀ piece groups, piece <:+: text → ¬ Spells pattern piece groups) :
    Absent pattern text := by
  intro passed piece groups rest heq hoccurs
  exact h piece groups ⟨passed, rest, by rw [heq, List.append_assoc]⟩ hoccurs.spells

namespace Absent

theorem findFrom? (h : Absent pattern text) (limit : Nat) :
    pattern.findFrom? limit (Place.start text) = none := by
  cases hfind : pattern.findFrom? limit (Place.start text) with
  | none => rfl
  | some found =>
      obtain ⟨hrest, ⟨groups, hoccurs, -⟩, -⟩ := occurs_of_findFrom? rfl rfl hfind
      rw [show (Place.start text).previous = none from rfl, Option.or_none] at hoccurs
      exact absurd hoccurs (h _ _ groups _ hrest)

theorem occursIn (h : Absent pattern text) : pattern.occursIn text = false := by
  unfold Pattern.occursIn find?
  rw [h.findFrom?]
  rfl

/-- What does not occur is not replaced. -/
theorem replaceAll (h : Absent pattern text) (replacement : Match → List Char) :
    pattern.replaceAll replacement text = text := by
  have hcuts : pattern.cuts text = ⟨[], text⟩ := by
    unfold cuts cutFrom
    rw [h.findFrom?]
    rfl
  rw [replaceAll_eq_written, hcuts]
  rfl

end Absent

/-! ## Missing characters -/

/-- Whether the pattern spells no text over the alphabet, because each way to read it asks for a
character that is not in the alphabet. -/
def isBlocked (alphabet : List Char) : Pattern → Bool
  | .empty => false
  | .char test => alphabet.all fun c => ! test c
  | .run least test => 0 < least && alphabet.all fun c => ! test c
  | .reluctantRun least test => 0 < least && alphabet.all fun c => ! test c
  | .anchor _ => false
  | .seq first second => first.isBlocked alphabet || second.isBlocked alphabet
  | .alt first second => first.isBlocked alphabet && second.isBlocked alphabet
  | .many _ => false
  | .group _ body => body.isBlocked alphabet

theorem not_all_of_mem {alphabet : List Char} {test : Char → Bool} {c : Char} (hc : test c = true)
    (hmem : c ∈ alphabet) : (alphabet.all fun c => ! test c) = false := by
  refine Bool.eq_false_iff.mpr fun hall => ?_
  have hnot : (! test c) = true := List.all_eq_true.mp hall c hmem
  rw [hc] at hnot
  cases hnot

theorem not_all_of_run {alphabet : List Char} {test : Char → Bool} {least : Nat}
    (hleast : least ≤ text.length) (hall : ∀ c ∈ text, test c = true)
    (htext : ∀ c ∈ text, c ∈ alphabet) :
    (decide (0 < least) && alphabet.all fun c => ! test c) = false := by
  cases text with
  | nil =>
      obtain rfl : least = 0 := Nat.le_zero.mp hleast
      rfl
  | cons c rest =>
      rw [not_all_of_mem (hall c List.mem_cons_self) (htext c List.mem_cons_self)]
      exact Bool.and_false _

theorem Spells.isBlocked {alphabet : List Char} (h : Spells pattern text groups)
    (htext : ∀ c ∈ text, c ∈ alphabet) : pattern.isBlocked alphabet = false := by
  induction h with
  | empty | anchor | manyNone | manyMore => rfl
  | char hc => exact not_all_of_mem hc (htext _ List.mem_cons_self)
  | run hleast hall | reluctantRun hleast hall => exact not_all_of_run hleast hall htext
  | seq _ _ ih ih' =>
      obtain ⟨hfirst, hsecond⟩ := List.forall_mem_append.mp htext
      rw [Pattern.isBlocked, ih hfirst, ih' hsecond]
      rfl
  | altFirst _ ih =>
      rw [Pattern.isBlocked, ih htext]
      rfl
  | altSecond _ ih =>
      rw [Pattern.isBlocked, ih htext]
      exact Bool.and_false _
  | group _ ih => exact ih htext

theorem Absent.of_isBlocked {alphabet : List Char} (h : pattern.isBlocked alphabet = true)
    (htext : ∀ c ∈ text, c ∈ alphabet) : Absent pattern text := by
  refine .of_not_spells fun piece groups hpiece hspells => ?_
  rw [hspells.isBlocked fun c hc => htext c (hpiece.subset hc)] at h
  cases h

theorem NoneOccurs.of_isBlocked {alphabet : List Char} (h : pattern.isBlocked alphabet = true)
    (htext : ∀ c ∈ text, c ∈ alphabet) (previous : Option Char) :
    NoneOccurs pattern previous text [] := by
  intro passed left hpassed _ piece groups rest heq hoccurs
  rw [List.append_nil] at heq
  have hpiece : piece <:+: text := ⟨passed, rest, by rw [hpassed, heq, List.append_assoc]⟩
  rw [hoccurs.spells.isBlocked fun c hc => htext c (hpiece.subset hc)] at h
  cases h

/-! ## Parts of sequences -/

/-- The parts behind the first ones spell the end of the text. -/
theorem Spells.exists_drop (parts : List Pattern) (count : Nat)
    (h : Spells (chain parts) text groups) :
    ∃ piece groups', piece <:+: text ∧ Spells (chain (parts.drop count)) piece groups' := by
  induction count generalizing parts text groups with
  | zero => exact ⟨text, groups, List.infix_rfl, h⟩
  | succ count ih =>
      cases parts with
      | nil => exact ⟨text, groups, List.infix_rfl, h⟩
      | cons part parts =>
          cases h with
          | seq _ h' =>
              obtain ⟨piece, groups', hpiece, hspells⟩ := ih _ h'
              exact ⟨piece, groups', hpiece.trans (List.suffix_append _ _).isInfix, hspells⟩

/-- An alternative of words spells one of them. -/
theorem exists_of_spells_words {list : List String} (h : Spells (words list) text groups) :
    ∃ word ∈ list, text = word.toList := by
  induction list with
  | nil =>
      cases h with
      | char hc => cases hc
  | cons first list ih =>
      cases list with
      | nil => exact ⟨first, List.mem_cons_self, (eq_of_spells_exactly h).1⟩
      | cons second list =>
          cases h with
          | altFirst h => exact ⟨first, List.mem_cons_self, (eq_of_spells_exactly h).1⟩
          | altSecond h =>
              obtain ⟨word, hword, htext⟩ := ih h
              exact ⟨word, List.mem_cons_of_mem _ hword, htext⟩

/-- An alternative of words spells each of them. -/
theorem spells_words {list : List String} {word : String} (h : word ∈ list) :
    Spells (words list) word.toList [] := by
  have hword (word : String) : Spells (literal word) word.toList [] :=
    (occurs_exactly word.toList [] none).spells
  induction list with
  | nil => cases h
  | cons first list ih =>
      cases list with
      | nil =>
          obtain rfl := List.mem_singleton.mp h
          exact hword word
      | cons second list =>
          rcases List.mem_cons.mp h with rfl | h
          · exact .altFirst (hword word)
          · exact .altSecond (ih h)

end StepTrace.Pattern
