import StepTrace.Proofs.ParameterNames
import StepTrace.Proofs.SpelledCounts

/-!
# Printed trees

A tree with whole numbers at its leaves is printed as nested lists: two marks around each list,
commas between its items, and any blanks, tabs and line breaks between two tokens (`Prints`). With
braces this is a list of initial values, with brackets a literal of the host language, and the one
becomes the other by exchanging the marks (`Prints.braceToBracket`).

* `NumberTree.depth`: the number of lists around each other.
* `Prints.isTreeChar`: the characters of a printed tree.
-/

namespace StepTrace.Lowering

open Pattern

/-! ## Trees -/

/-- A tree with whole numbers at its leaves. -/
inductive NumberTree where
  | leaf (n : Nat)
  | node (children : List NumberTree)

mutual

/-- The greatest number of nodes on a way to a leaf. -/
def NumberTree.depth : NumberTree → Nat
  | .leaf _ => 0
  | .node children => NumberTree.depthOfAll children + 1

/-- The depth of the deepest of the trees. -/
def NumberTree.depthOfAll : List NumberTree → Nat
  | [] => 0
  | tree :: others => max tree.depth (NumberTree.depthOfAll others)

end

/-! ## Printing -/

/-- A character that may stand between two tokens: a blank, a tab or a part of a line break. -/
def isLayoutChar : Char → Bool :=
  oneIn " \t\r\n"

/-- An item of a list as it is printed: the tree and its text, between other layout. -/
structure PrintedItem where
  before : List Char
  tree : NumberTree
  text : List Char
  behind : List Char

namespace PrintedItem

/-- The text of the item with the layout around it. -/
def whole (item : PrintedItem) : List Char :=
  item.before ++ (item.text ++ item.behind)

/-- Around the item stands layout only. -/
def IsLaidOut (item : PrintedItem) : Prop :=
  (∀ c ∈ item.before, isLayoutChar c = true) ∧ ∀ c ∈ item.behind, isLayoutChar c = true

/-- The items behind an opening mark, with commas between them, up to the closing mark. -/
def list (gap : List Char) (items : List PrintedItem) (closing : Char) : List Char :=
  gap ++ (Text.join [','] (items.map whole) ++ [closing])

end PrintedItem

/-- The text is the tree, printed with the two marks around each list. -/
inductive Prints (opening closing : Char) : NumberTree → List Char → Prop
  | leaf (n : Nat) : Prints opening closing (.leaf n) (Number.decimal n)
  | node {gap : List Char} {items : List PrintedItem} (hgap : ∀ c ∈ gap, isLayoutChar c = true)
    (hlayout : ∀ item ∈ items, item.IsLaidOut)
    (hitems : ∀ item ∈ items, Prints opening closing item.tree item.text) :
    Prints opening closing (.node (items.map PrintedItem.tree))
      (opening :: PrintedItem.list gap items closing)

/-! ## Characters -/

/-- A character of a printed tree. -/
def isTreeChar (opening closing c : Char) : Bool :=
  c.isDigit || isLayoutChar c || c == ',' || c == opening || c == closing

variable {opening closing c : Char} {tree : NumberTree} {text : List Char}

theorem isTreeChar_of_isLayoutChar (h : isLayoutChar c = true) :
    isTreeChar opening closing c = true := by
  simp [isTreeChar, h]

theorem Prints.isTreeChar (h : Prints opening closing tree text) :
    ∀ c ∈ text, isTreeChar opening closing c = true := by
  induction h with
  | leaf n =>
      intro c hc
      simp [Lowering.isTreeChar, Number.isDigit_of_mem_decimal hc]
  | @node gap items hgap hlayout _ ih =>
      have hopening : Lowering.isTreeChar opening closing opening = true := by
        simp [Lowering.isTreeChar]
      have hclosing : Lowering.isTreeChar opening closing closing = true := by
        simp [Lowering.isTreeChar]
      refine List.forall_mem_cons.mpr ⟨hopening, List.forall_mem_append.mpr ⟨?_, ?_⟩⟩
      · exact fun c hc => isTreeChar_of_isLayoutChar (hgap c hc)
      · refine List.forall_mem_append.mpr ⟨fun c hc => ?_, List.forall_mem_singleton.mpr hclosing⟩
        rcases Text.mem_join hc with hcomma | ⟨piece, hpiece, hc⟩
        · rw [List.mem_singleton.mp hcomma]
          simp [Lowering.isTreeChar]
        · obtain ⟨item, hitem, rfl⟩ := List.mem_map.mp hpiece
          obtain ⟨hbefore, hbehind⟩ := hlayout item hitem
          rcases List.mem_append.mp hc with hc | hc
          · exact isTreeChar_of_isLayoutChar (hbefore c hc)
          · rcases List.mem_append.mp hc with hc | hc
            · exact ih item hitem c hc
            · exact isTreeChar_of_isLayoutChar (hbehind c hc)

/-- A tree that is no leaf is printed between its marks. -/
theorem Prints.exists_inner (h : Prints opening closing tree text) (hdepth : 1 ≤ tree.depth) :
    ∃ inner, text = opening :: (inner ++ [closing]) ∧
      ∀ c ∈ inner, Lowering.isTreeChar opening closing c = true := by
  have hchars := h.isTreeChar
  cases h with
  | leaf n => cases hdepth
  | @node gap items =>
      have htext : opening :: PrintedItem.list gap items closing =
          opening :: (gap ++ Text.join [','] (items.map PrintedItem.whole) ++ [closing]) := by
        rw [PrintedItem.list, List.append_assoc]
      refine ⟨_, htext, fun c hc => hchars c ?_⟩
      rw [htext]
      exact List.mem_cons_of_mem _ (List.mem_append_left _ hc)

/-! ## From braces to brackets -/

theorem braceToBracket_append (front back : List Char) :
    braceToBracket (front ++ back) = braceToBracket front ++ braceToBracket back :=
  List.map_append

/-- A text without braces stays as it is. -/
theorem braceToBracket_eq_self (h : ∀ c ∈ text, c ≠ '{' ∧ c ≠ '}') :
    braceToBracket text = text := by
  have hsame : ∀ c ∈ text, (if c = '{' then '[' else if c = '}' then ']' else c) = c := by
    intro c hc
    obtain ⟨hopen, hclose⟩ := h c hc
    rw [if_neg hopen, if_neg hclose]
  exact (List.map_congr_left hsame).trans (List.map_id text)

theorem braceToBracket_of_isLayoutChar (h : ∀ c ∈ text, isLayoutChar c = true) :
    braceToBracket text = text := by
  refine braceToBracket_eq_self fun c hc => ⟨?_, ?_⟩
  · rintro rfl
    cases h _ hc
  · rintro rfl
    cases h _ hc

theorem braceToBracket_decimal (n : Nat) :
    braceToBracket (Number.decimal n) = Number.decimal n := by
  refine braceToBracket_eq_self fun c hc => ⟨?_, ?_⟩
  · rintro rfl
    cases Number.isDigit_of_mem_decimal hc
  · rintro rfl
    cases Number.isDigit_of_mem_decimal hc

theorem braceToBracket_join (pieces : List (List Char)) :
    braceToBracket (Text.join [','] pieces) = Text.join [','] (pieces.map braceToBracket) := by
  induction pieces with
  | nil => rfl
  | cons piece pieces ih =>
      cases pieces with
      | nil => rw [List.map_singleton, Text.join_singleton, Text.join_singleton]
      | cons next others =>
          rw [Text.join_cons_cons, braceToBracket_append, braceToBracket_append, ih]
          exact (Text.join_cons_cons [','] (braceToBracket piece) (braceToBracket next)
            (others.map braceToBracket)).symm

/-- The item with brackets in place of the braces in it. -/
def PrintedItem.bracketed (item : PrintedItem) : PrintedItem :=
  { item with text := braceToBracket item.text }

theorem PrintedItem.whole_bracketed {item : PrintedItem} (h : item.IsLaidOut) :
    item.bracketed.whole = braceToBracket item.whole := by
  rw [whole, whole, braceToBracket_append, braceToBracket_append,
    braceToBracket_of_isLayoutChar h.1, braceToBracket_of_isLayoutChar h.2]
  rfl

theorem PrintedItem.list_bracketed {gap : List Char} {items : List PrintedItem}
    (hgap : ∀ c ∈ gap, isLayoutChar c = true) (hlayout : ∀ item ∈ items, item.IsLaidOut) :
    list gap (items.map bracketed) ']' = braceToBracket (list gap items '}') := by
  have hitems : (items.map bracketed).map whole = (items.map whole).map braceToBracket := by
    rw [List.map_map, List.map_map]
    exact List.map_congr_left fun item hitem => whole_bracketed (hlayout item hitem)
  rw [list, list, braceToBracket_append, braceToBracket_append, braceToBracket_join,
    braceToBracket_of_isLayoutChar hgap, hitems]
  rfl

/-- Exchanging braces for brackets prints the same tree between other marks. -/
theorem Prints.braceToBracket (h : Prints '{' '}' tree text) :
    Prints '[' ']' tree (braceToBracket text) := by
  induction h with
  | leaf n =>
      rw [braceToBracket_decimal]
      exact .leaf n
  | @node gap items hgap hlayout _ ih =>
      have htrees : items.map PrintedItem.tree =
          (items.map PrintedItem.bracketed).map PrintedItem.tree := by
        rw [List.map_map]
        rfl
      change Prints '[' ']' _ ('[' :: Lowering.braceToBracket (PrintedItem.list gap items '}'))
      rw [← PrintedItem.list_bracketed hgap hlayout, htrees]
      refine .node hgap (List.forall_mem_map.mpr hlayout) (List.forall_mem_map.mpr ih)

end StepTrace.Lowering
