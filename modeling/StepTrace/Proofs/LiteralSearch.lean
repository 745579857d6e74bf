import StepTrace.Proofs.Occurrences

/-!
# Finding a fixed text

A pattern that is a fixed text spells that text only, and occurs wherever the text stands. So it
occurs once in a text that has its first character once, and one place is replaced there
(`replaceAll_exactly`).
-/

namespace StepTrace.Pattern

/-- The characters one after the other. -/
def exactly (text : List Char) : Pattern :=
  text.foldr (fun c p => .seq (.char (· == c)) p) .empty

theorem literal_eq_exactly (text : String) : literal text = exactly text.toList :=
  rfl

/-- A fixed text spells itself only. -/
theorem eq_of_spells_exactly {text spelled : List Char} {groups : List (Nat × List Char)}
    (h : Spells (exactly text) spelled groups) : spelled = text ∧ groups = [] := by
  induction text generalizing spelled groups with
  | nil =>
      cases h
      exact ⟨rfl, rfl⟩
  | cons c text ih =>
      cases h with
      | seq hfirst hrest =>
          obtain ⟨rfl, rfl⟩ := ih hrest
          cases hfirst with
          | char hc =>
              rw [beq_iff_eq.mp hc]
              exact ⟨rfl, rfl⟩

/-- A text of one character is spelled by that character only. -/
theorem eq_of_spells_mark (mark : Char) {spelled : List Char} {groups : List (Nat × List Char)}
    (h : Spells (exactly [mark]) spelled groups) : spelled = [mark] ∧ groups = [] :=
  eq_of_spells_exactly h

theorem occurs_exactly (text behind : List Char) (previous : Option Char) :
    Occurs (exactly text) previous text behind [] := by
  induction text generalizing previous with
  | nil => exact .empty
  | cons c text ih =>
      have hfirst : Occurs (.char (· == c)) previous [c] (text ++ behind) [] :=
        .char (beq_self_eq_true c)
      exact hfirst.seq (ih _)

/-- A fixed text begins only where its first character stands. -/
theorem noneBegins_exactly {c : Char} {front : List Char} (hfront : c ∉ front)
    (text back : List Char) : NoneBegins (exactly (c :: text)) front back := by
  intro passed left hsplit hleft spelled groups rest heq hspells
  rw [(eq_of_spells_exactly hspells).1] at heq
  obtain ⟨c', left, rfl⟩ := List.exists_cons_of_ne_nil hleft
  obtain rfl : c' = c := (List.cons.inj heq).1
  exact hfront (hsplit ▸ List.mem_append_right _ List.mem_cons_self)

/-- Replacing a fixed text where it stands once. -/
theorem replaceAll_exactly {c : Char} {text front back : List Char} (hfront : c ∉ front)
    (hback : c ∉ back) (replacement : Match → List Char) :
    (exactly (c :: text)).replaceAll replacement (front ++ (c :: text ++ back)) =
      front ++ (replacement ⟨c :: text, [(0, c :: text)]⟩ ++ back) := by
  refine replaceAll_once ?_ ((noneBegins_exactly hfront _ _).noneOccurs _)
    (occurs_exactly _ _ _) ?_ ((noneBegins_exactly hback _ _).noneOccurs _) ?_
  · intro previous behind groups hoccurs
    cases (eq_of_spells_exactly hoccurs.spells).1
  · intro text' groups' behind' _ hoccurs
    exact (eq_of_spells_exactly hoccurs.spells).1
  · intro groups' hoccurs
    rw [(eq_of_spells_exactly hoccurs.spells).2]

end StepTrace.Pattern
