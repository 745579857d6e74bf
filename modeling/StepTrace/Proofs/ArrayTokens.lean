import StepTrace.Proofs.ExactCounts
import StepTrace.Proofs.LoneLexemes
import StepTrace.Proofs.PrintedTrees

/-!
# The tokens of a printed tree

A tree that is printed with brackets is cut into the tokens of its numerals and marks, whatever
layout stands between them (`Prints.lexesAs`). A numeral is one token as long as no part of a name
and no point follows (`EndsNumeral`), and in a printed tree a numeral is followed by layout, a comma
or a closing bracket.

* `leafNumber`: the double that a numeral stands for.
* `NumberTree.kinds`: the tokens of a tree without their places.
-/

namespace StepTrace.Lowering

open Syntax

/-- The double nearest to the whole number, which is what the numeral of the number is read as. -/
def leafNumber (n : Nat) : Float :=
  Number.ofDecimal (Number.decimal n) 0

/-- A leaf that a double can hold is read as itself. -/
theorem toInt?_leafNumber {n : Nat} (h : n < 2 ^ 53) : Number.toInt? (leafNumber n) = some n := by
  have hlog : n.log2 < 1024 := by
    rcases Nat.eq_zero_or_pos n with rfl | hn
    · decide
    · exact Nat.lt_trans ((Nat.log2_lt (Nat.ne_of_gt hn)).mpr h) (by decide)
  rw [leafNumber, Number.ofDecimal_decimal hlog, Number.toInt?_ofNat h]

mutual

/-- The tokens of the tree. -/
def NumberTree.kinds : NumberTree → List Kind
  | .leaf n => [.number (leafNumber n)]
  | .node children =>
    .symbol .leftBracket :: (NumberTree.kindsOfAll children ++ [.symbol .rightBracket])

/-- The tokens of the trees with a comma between two of them. -/
def NumberTree.kindsOfAll : List NumberTree → List Kind
  | [] => []
  | [tree] => tree.kinds
  | tree :: next :: others => tree.kinds ++ .symbol .comma :: NumberTree.kindsOfAll (next :: others)

end

end StepTrace.Lowering

namespace StepTrace.Syntax

open Capture Text Lowering

variable {left n : Nat} {l : Location} {text rest gap : List Char} {others : List Token}

/-! ## Numerals -/

/-- A numeral in front of the text is not longer than its digits. -/
def EndsNumeral (rest : List Char) : Prop :=
  ∀ c ∈ rest.head?, isNamePart c = false ∧ c ≠ '.'

theorem EndsNumeral.stops (h : EndsNumeral rest) : StopsDigits rest := by
  intro c hc
  obtain ⟨hname, -⟩ := h c hc
  refine ⟨Bool.eq_false_iff.mpr fun hmark => ?_, ?_, ?_⟩
  · have hcases : c.isDigit = true ∨ c = '_' := by simpa [isDigitMark] using hmark
    rcases hcases with hdigit | rfl
    · exact absurd (isNamePart_of_isDigit hdigit) (by simp [hname])
    · cases hname
  · rintro rfl
    cases hname
  · rintro rfl
    cases hname

theorem EndsNumeral.fractionPart (h : EndsNumeral rest) : fractionPart rest = ([], rest) := by
  unfold Syntax.fractionPart
  split
  · exact absurd rfl (h '.' rfl).2
  · exact absurd rfl (h '.' rfl).2
  · rfl

theorem EndsNumeral.exponentPart (h : EndsNumeral rest) : exponentPart rest = ([], rest) := by
  cases rest with
  | nil => rfl
  | cons c rest =>
      have hmark : ¬ (c = 'e' ∨ c = 'E') := by
        rintro (rfl | rfl)
        · cases (h 'e' rfl).1
        · cases (h 'E' rfl).1
      simp only [Syntax.exponentPart, Bool.or_eq_true, decide_eq_true_eq]
      rw [if_neg hmark]

theorem readDecimal?_digits {digits : List Char} (hne : digits ≠ [])
    (h : ∀ c ∈ digits, c.isDigit = true) :
    Number.readDecimal? digits = some (Number.ofDecimal digits 0) := by
  obtain ⟨c, more, rfl⟩ := List.exists_cons_of_ne_nil hne
  have hsplit : Number.splitDigits (c :: more ++ []) = (c :: more, []) :=
    splitDigits_of_digits h nofun
  rw [List.append_nil] at hsplit
  rw [Number.readDecimal?, splitSign_of_digit (Or.inl (h c List.mem_cons_self))]
  dsimp only
  rw [hsplit]
  simp [Number.readExponent?]

/-- A numeral is read up to its end. -/
theorem lexeme_decimal (hrest : EndsNumeral rest) {c : Char} {more : List Char}
    (htext : Number.decimal n = c :: more) :
    lexeme c (more ++ rest) = .ok ⟨.number (leafNumber n), c :: more, rest⟩ := by
  have hdigits : ∀ d ∈ c :: more, d.isDigit = true :=
    fun d hd => Number.isDigit_of_mem_decimal (htext ▸ hd)
  obtain ⟨hfirst, hmore⟩ := List.forall_mem_cons.mp hdigits
  have hquote : ¬ (c = '"' || c = '\'') = true := by
    simp only [Bool.or_eq_true, decide_eq_true_eq]
    rintro (rfl | rfl)
    · cases hfirst
    · cases hfirst
  have hpoint : c ≠ '.' := by
    rintro rfl
    cases hfirst
  have hsuffix : rest.head? ≠ some 'n' := fun hhead => by cases (hrest 'n' hhead).1
  have hmarks : ∀ d ∈ more, isDigitMark d = true := fun d hd => by simp [isDigitMark, hmore d hd]
  have hread : Number.readDecimal? (dropUnderscores (c :: more)) = some (leafNumber n) := by
    rw [dropUnderscores_eq (not_underscore_of_digits hdigits),
      readDecimal?_digits (List.cons_ne_nil _ _) hdigits, leafNumber, htext]
  have hstart : (c.isDigit || (c = '.' && (more ++ rest).head?.any Char.isDigit)) = true := by
    rw [hfirst, Bool.true_or]
  rw [lexeme, if_neg hquote, if_pos hstart,
    numberLexeme_decimal hmarks hrest.stops (Or.inl hsuffix), if_neg hpoint, hrest.fractionPart]
  dsimp only
  rw [numberLexeme.finish, hrest.exponentPart]
  simp only [List.append_nil, hread]

/-! ## Pieces of a printed tree -/

/-- Layout between two tokens takes no token. -/
theorem tokensFrom_layout (hgap : ∀ c ∈ gap, isLayoutChar c = true) (left : Nat) (l : Location)
    (rest : List Char) :
    tokensFrom (left + 1) l (gap ++ rest) = tokensFrom (left + 1) (l.after gap) rest := by
  induction gap generalizing l with
  | nil => rfl
  | cons c gap ih =>
      obtain ⟨hc, hgap⟩ := List.forall_mem_cons.mp hgap
      have hblank : isBlank c = true := by
        have hcases : c = ' ' ∨ c = '\t' ∨ c = '\r' ∨ c = '\n' := by
          simpa [isLayoutChar, Pattern.oneIn] using hc
        rcases hcases with rfl | rfl | rfl | rfl <;> rfl
      rw [List.cons_append, tokensFrom_blank hblank, ih hgap]
      rfl

/-- The marks of a declaration with the symbols that they are. -/
def marks : List (Char × Symbol) :=
  [('[', .leftBracket), (']', .rightBracket), (',', .comma), (';', .semicolon)]

theorem skipGap_mark {mark : Char} {s : Symbol} (hmark : (mark, s) ∈ marks) (l : Location)
    (rest : List Char) : skipGap .open l (mark :: rest) = .ok (l, mark :: rest) := by
  simp only [marks, List.mem_cons, List.not_mem_nil, or_false, Prod.mk.injEq] at hmark
  rcases hmark with ⟨rfl, -⟩ | ⟨rfl, -⟩ | ⟨rfl, -⟩ | ⟨rfl, -⟩ <;> rfl

theorem lexeme_mark {mark : Char} {s : Symbol} (hmark : (mark, s) ∈ marks) (rest : List Char) :
    lexeme mark rest = .ok ⟨.symbol s, [mark], rest⟩ := by
  simp only [marks, List.mem_cons, List.not_mem_nil, or_false, Prod.mk.injEq] at hmark
  rcases hmark with ⟨rfl, rfl⟩ | ⟨rfl, rfl⟩ | ⟨rfl, rfl⟩ | ⟨rfl, rfl⟩ <;> rfl

theorem tokensFrom_mark {mark : Char} {s : Symbol} (hmark : (mark, s) ∈ marks)
    (h : tokensFrom left (l.next mark) rest = .ok others) :
    tokensFrom (left + 1) l (mark :: rest) = .ok (⟨.symbol s, l⟩ :: others) :=
  tokensFrom_cons (skipGap_mark hmark l rest) (lexeme_mark hmark rest) h

theorem EndsNumeral.mark {mark : Char} {s : Symbol} (hmark : (mark, s) ∈ marks) :
    EndsNumeral (mark :: rest) := by
  simp only [marks, List.mem_cons, List.not_mem_nil, or_false, Prod.mk.injEq] at hmark
  rintro c ⟨⟩
  rcases hmark with ⟨rfl, -⟩ | ⟨rfl, -⟩ | ⟨rfl, -⟩ | ⟨rfl, -⟩ <;> decide

theorem EndsNumeral.layout (hgap : ∀ c ∈ gap, isLayoutChar c = true) (h : EndsNumeral rest) :
    EndsNumeral (gap ++ rest) := by
  cases gap with
  | nil => exact h
  | cons c gap =>
      have hcases : c = ' ' ∨ c = '\t' ∨ c = '\r' ∨ c = '\n' := by
        simpa [isLayoutChar, Pattern.oneIn] using hgap c List.mem_cons_self
      rintro c ⟨⟩
      rcases hcases with rfl | rfl | rfl | rfl <;> decide

/-- The text is cut into tokens of these kinds, wherever it stands in front of an end of
numerals. -/
structure LexesAs (text : List Char) (kinds : List Kind) : Prop where
  fits : kinds.length ≤ text.length
  cut : ∀ (left : Nat) (l : Location) (rest : List Char) (others : List Token), EndsNumeral rest →
    tokensFrom (left + 1) (l.after text) rest = .ok others →
    ∃ tokens, tokens.map Token.kind = kinds ∧
      tokensFrom (left + 1 + kinds.length) l (text ++ rest) = .ok (tokens ++ others)

namespace LexesAs

variable {text' : List Char} {kinds kinds' : List Kind}

theorem nil : LexesAs [] [] where
  fits := Nat.le_refl 0
  cut _ _ _ _ _ h := ⟨[], rfl, h⟩

theorem decimal (n : Nat) : LexesAs (Number.decimal n) [.number (leafNumber n)] := by
  obtain ⟨c, more, htext⟩ : ∃ c more, Number.decimal n = c :: more :=
    List.exists_cons_of_ne_nil Nat.toDigits_ne_nil
  have hdigit : c.isDigit = true := Number.isDigit_of_mem_decimal (htext ▸ List.mem_cons_self)
  have hslash : c ≠ '/' := by
    rintro rfl
    cases hdigit
  have hgap (l : Location) (rest : List Char) :
      skipGap .open l (c :: (more ++ rest)) = .ok (l, c :: (more ++ rest)) :=
    skipGap_none (not_blank_of_isNamePart (isNamePart_of_isDigit hdigit))
      fun heq => absurd heq hslash
  rw [htext]
  refine ⟨Nat.le_add_left 1 _, fun left l rest others hrest h => ?_⟩
  exact ⟨[⟨.number (leafNumber n), l⟩], rfl,
    tokensFrom_cons (hgap l rest) (lexeme_decimal hrest htext) h⟩

theorem append (h : LexesAs text kinds) (h' : LexesAs text' kinds')
    (hends : ∀ {rest}, EndsNumeral rest → EndsNumeral (text' ++ rest)) :
    LexesAs (text ++ text') (kinds ++ kinds') := by
  constructor
  · rw [List.length_append, List.length_append]
    exact Nat.add_le_add h.fits h'.fits
  · intro left l rest others hrest hothers
    rw [Location.after_append] at hothers
    obtain ⟨tokens', hkinds', htokens'⟩ := h'.cut _ _ _ _ hrest hothers
    rw [Nat.add_right_comm] at htokens'
    obtain ⟨tokens, hkinds, htokens⟩ := h.cut _ _ _ _ (hends hrest) htokens'
    refine ⟨tokens ++ tokens', by rw [List.map_append, hkinds, hkinds'], ?_⟩
    have hleft : left + 1 + (kinds ++ kinds').length =
        left + kinds'.length + 1 + kinds.length := by
      rw [List.length_append]
      omega
    rw [hleft, List.append_assoc, List.append_assoc]
    exact htokens

/-- In front of the text stands a lexeme. -/
theorem behind_lexeme (h : LexesAs text kinds) (c : Char) (more : List Char) (kind : Kind)
    (hgap : ∀ l rest, skipGap .open l (c :: rest) = .ok (l, c :: rest))
    (hfound : ∀ rest, lexeme c (more ++ (text ++ rest)) = .ok ⟨kind, c :: more, text ++ rest⟩) :
    LexesAs (c :: more ++ text) (kind :: kinds) := by
  constructor
  · have hfits := h.fits
    simp only [List.length_append, List.length_cons]
    omega
  · intro left l rest others hrest hothers
    rw [Location.after_append] at hothers
    obtain ⟨tokens, hkinds, htokens⟩ := h.cut _ _ _ _ hrest hothers
    refine ⟨⟨kind, l⟩ :: tokens, by rw [List.map_cons, hkinds], ?_⟩
    rw [List.append_assoc]
    exact tokensFrom_cons (hgap l _) (hfound rest) htokens

theorem behind_mark {mark : Char} {s : Symbol} (hmark : (mark, s) ∈ marks)
    (h : LexesAs text kinds) : LexesAs (mark :: text) (.symbol s :: kinds) :=
  h.behind_lexeme mark [] (.symbol s) (skipGap_mark hmark) fun _ => lexeme_mark hmark _

theorem behind_layout (hgap : ∀ c ∈ gap, isLayoutChar c = true) (h : LexesAs text kinds) :
    LexesAs (gap ++ text) kinds := by
  constructor
  · rw [List.length_append]
    exact Nat.le_add_left_of_le h.fits
  · intro left l rest others hrest hothers
    rw [Location.after_append] at hothers
    obtain ⟨tokens, hkinds, htokens⟩ := h.cut _ _ _ _ hrest hothers
    refine ⟨tokens, hkinds, ?_⟩
    rw [Nat.add_right_comm] at htokens ⊢
    rw [List.append_assoc, tokensFrom_layout hgap, htokens]

theorem before_layout (hgap : ∀ c ∈ gap, isLayoutChar c = true) (h : LexesAs text kinds) :
    LexesAs (text ++ gap) kinds := by
  have hlayout : LexesAs gap [] := by
    have hbehind := nil.behind_layout hgap
    rwa [List.append_nil] at hbehind
  have hboth := h.append hlayout (EndsNumeral.layout hgap)
  rwa [List.append_nil] at hboth

theorem whole {item : PrintedItem} (hlayout : item.IsLaidOut) (h : LexesAs item.text kinds) :
    LexesAs item.whole kinds :=
  (h.before_layout hlayout.2).behind_layout hlayout.1

/-- The items of a list with the commas between them. -/
theorem join {items : List PrintedItem} (hlayout : ∀ item ∈ items, item.IsLaidOut)
    (hitems : ∀ item ∈ items, LexesAs item.text item.tree.kinds) :
    LexesAs (Text.join [','] (items.map PrintedItem.whole))
      (NumberTree.kindsOfAll (items.map PrintedItem.tree)) := by
  induction items with
  | nil => exact nil
  | cons item items ih =>
      obtain ⟨hlayout, hothersLayout⟩ := List.forall_mem_cons.mp hlayout
      obtain ⟨hitem, hothers⟩ := List.forall_mem_cons.mp hitems
      have hwhole := hitem.whole hlayout
      cases items with
      | nil => rwa [List.map_singleton, Text.join_singleton]
      | cons next others =>
          have hcomma : (',', Symbol.comma) ∈ marks := by decide
          have hrest := (ih hothersLayout hothers).behind_mark hcomma
          rw [List.map_cons, List.map_cons, Text.join_cons_cons]
          exact hwhole.append hrest fun _ => .mark hcomma

end LexesAs

end StepTrace.Syntax

namespace StepTrace.Lowering

open Syntax

/-- **Tokens.** A printed tree is cut into the tokens of the tree. -/
theorem Prints.lexesAs {tree : NumberTree} {text : List Char} (h : Prints '[' ']' tree text) :
    LexesAs text tree.kinds := by
  induction h with
  | leaf n => exact .decimal n
  | node hgap hlayout _ ih =>
      have hopening : ('[', Symbol.leftBracket) ∈ marks := by decide
      have hclosing : (']', Symbol.rightBracket) ∈ marks := by decide
      have hclosed := (LexesAs.join hlayout ih).append (LexesAs.nil.behind_mark hclosing)
        fun _ => .mark hclosing
      exact (hclosed.behind_layout hgap).behind_mark hopening

end StepTrace.Lowering
