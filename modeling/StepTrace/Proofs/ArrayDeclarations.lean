import StepTrace.Proofs.AbsentPatterns
import StepTrace.Proofs.PrintedTrees
import StepTrace.Proofs.TokenTexts

/-!
# Declarations of arrays

A declaration of a variable is a word, marks, the name, an equality sign, a printed tree and a
semicolon (`variableText`). Its letters stand in the word and in the name, so there are two places
only where a letter stands in front of a mark (`mark_behind_letter`). Most rules ask for a word,
blanks and the beginning of another word, which a typed declaration does not have (`NoPhrase`).

* `declarationChars`: the characters of declarations.
-/

namespace StepTrace.Lowering

open Pattern

/-! ## Texts -/

/-- The words that the rule for modifiers takes away. -/
def modifierWords : List String :=
  ["public", "private", "protected", "static", "final", "abstract", "synchronized", "transient",
    "volatile"]

/-- An identifier of all the languages that is a keyword of none: the typed languages have no dollar
sign in common, and the host language has no letters but the ASCII ones. Of the keywords that the
typed languages add, only the modifiers matter. -/
structure IsVariable (name : List Char) : Prop where
  isName : IsName name
  identifier : Syntax.IsIdentifier name
  plain : ∀ word ∈ modifierWords, name ≠ word.toList

/-- A declaration with an initial value. -/
def variableText (word marks name value : List Char) : List Char :=
  word ++ (marks ++ (name ++ ([' ', '=', ' '] ++ (value ++ [';']))))

/-- So many pairs of brackets. -/
def bracketPairs : Nat → List Char
  | 0 => []
  | depth + 1 => '[' :: ']' :: bracketPairs depth

/-- The declaration of an array of that depth in Java. -/
def arrayText (depth : Nat) (name value : List Char) : List Char :=
  variableText ['i', 'n', 't'] (bracketPairs depth ++ [' ']) name value

example : arrayText 2 ['x'] "{{1}}".toList = "int[][] x = {{1}};".toList := by decide

/-! ## Characters -/

/-- A character that may stand in a declaration of an array. -/
def isDeclarationChar (c : Char) : Bool :=
  Text.isAsciiWordChar c || oneIn " \t\r\n[]\x7b\x7d,;=" c

/-- The characters that may stand in a declaration of an array. -/
def declarationChars : List Char :=
  ((List.range 128).map Char.ofNat).filter isDeclarationChar

variable {c : Char} {name value text word marks : List Char}

theorem mem_declarationChars (h : isDeclarationChar c = true) : c ∈ declarationChars := by
  have hascii : c.toNat < 128 := by
    rcases Bool.or_eq_true_iff.mp h with h | h
    · exact Capture.ascii_of_isNamePart (Bool.or_eq_true_iff.mpr (Or.inl h))
    · have hall : ∀ c ∈ " \t\r\n[]\x7b\x7d,;=".toList, c.toNat < 128 :=
      Syntax.forall_of_all (by decide)
      exact hall c (List.contains_iff_mem.mp h)
  refine List.mem_filter.mpr ⟨List.mem_map.mpr ⟨c.toNat, List.mem_range.mpr hascii, ?_⟩, h⟩
  exact Char.ofNat_toNat c

theorem IsVariable.isAsciiWordChar (h : IsVariable name) (hc : c ∈ name) :
    Text.isAsciiWordChar c = true := by
  have hascii := Capture.ascii_of_isNamePart (h.identifier.part c hc)
  rw [← Text.isWordChar_of_ascii hascii]
  exact h.isName.isWordChar c hc

/-- What the characters of trees between brackets and between braces have in common. -/
def isValueChar (c : Char) : Bool :=
  c.isDigit || oneIn " \t\r\n[]\x7b\x7d," c

theorem isValueChar_of_isTreeChar {opening closing : Char} (h : isTreeChar opening closing c = true)
    (hmarks : (opening = '{' ∧ closing = '}') ∨ (opening = '[' ∧ closing = ']')) :
    isValueChar c = true := by
  simp only [isTreeChar, Bool.or_eq_true, beq_iff_eq] at h
  rcases h with (((h | h) | rfl) | rfl) | rfl
  · simp [isValueChar, h]
  · have hall : ∀ c ∈ " \t\r\n".toList, isValueChar c = true :=
      Syntax.forall_of_all (by decide)
    exact hall c (List.contains_iff_mem.mp h)
  · rfl
  · rcases hmarks with ⟨rfl, -⟩ | ⟨rfl, -⟩ <;> rfl
  · rcases hmarks with ⟨-, rfl⟩ | ⟨-, rfl⟩ <;> rfl

theorem isInitialChar_of_isTreeChar (h : isTreeChar '{' '}' c = true) : isInitialChar c = true := by
  simp only [isTreeChar, Bool.or_eq_true, beq_iff_eq] at h
  rcases h with (((h | h) | rfl) | rfl) | rfl
  · have hascii : c.toNat < 128 := by
      rw [Syntax.isDigit_iff] at h
      omega
    simp [isInitialChar, Text.isWordChar_of_ascii hascii, Text.isAsciiWordChar, Char.isAlphanum, h]
  · have hall : ∀ c ∈ " \t\r\n".toList, isInitialChar c = true :=
      Syntax.forall_of_all (by decide)
    exact hall c (List.contains_iff_mem.mp h)
  all_goals rfl

theorem isDeclarationChar_of_isValueChar (h : isValueChar c = true) :
    isDeclarationChar c = true := by
  rcases Bool.or_eq_true_iff.mp h with h | h
  · simp [isDeclarationChar, Text.isAsciiWordChar, Char.isAlphanum, h]
  · have hall : ∀ c ∈ " \t\r\n[]\x7b\x7d,".toList, isDeclarationChar c = true :=
      Syntax.forall_of_all (by decide)
    exact hall c (List.contains_iff_mem.mp h)

theorem isAlpha_of_isValueChar (h : isValueChar c = true) : c.isAlpha = false := by
  rcases Bool.or_eq_true_iff.mp h with h | h
  · refine Bool.eq_false_iff.mpr fun halpha => ?_
    rw [Syntax.isDigit_iff] at h
    rw [Syntax.isAlpha_iff] at halpha
    omega
  · have hall : ∀ c ∈ " \t\r\n[]\x7b\x7d,".toList, c.isAlpha = false :=
      Syntax.forall_of_all (by decide)
    exact hall c (List.contains_iff_mem.mp h)

theorem marks_bracketPairs (depth : Nat) : ∀ c ∈ bracketPairs depth ++ [' '],
    isMarkChar c = true ∧ isDeclarationChar c = true := by
  induction depth with
  | zero => exact Syntax.forall_of_all rfl
  | succ depth ih =>
      exact List.forall_mem_cons.mpr ⟨⟨rfl, rfl⟩, List.forall_mem_cons.mpr ⟨⟨rfl, rfl⟩, ih⟩⟩

/-- The parts of a declaration whose value is a printed tree. -/
structure IsDeclared (word marks name value : List Char) : Prop where
  word : ∀ c ∈ word, c.isAlpha = true
  marks : ∀ c ∈ marks, isMarkChar c = true ∧ isDeclarationChar c = true
  name : IsVariable name
  value : ∀ c ∈ value, isValueChar c = true

namespace IsDeclared

theorem isDeclarationChar (h : IsDeclared word marks name value) :
    ∀ c ∈ variableText word marks name value, isDeclarationChar c = true := by
  have hword : ∀ c ∈ word, Lowering.isDeclarationChar c = true := by
    intro c hc
    simp [Lowering.isDeclarationChar, Text.isAsciiWordChar, Char.isAlphanum, h.word c hc]
  have hname : ∀ c ∈ name, Lowering.isDeclarationChar c = true :=
    fun c hc => Bool.or_eq_true_iff.mpr (Or.inl (h.name.isAsciiWordChar hc))
  refine List.forall_mem_append.mpr ⟨hword, List.forall_mem_append.mpr
    ⟨fun c hc => (h.marks c hc).2, List.forall_mem_append.mpr
      ⟨hname, List.forall_mem_append.mpr ⟨Syntax.forall_of_all rfl,
        List.forall_mem_append.mpr ⟨?_, Syntax.forall_of_all rfl⟩⟩⟩⟩⟩
  exact fun c hc => isDeclarationChar_of_isValueChar (h.value c hc)

/-- A pattern that asks for another character does not occur in a declaration. -/
theorem absent_of_isBlocked {pattern : Pattern} (h : IsDeclared word marks name value)
    (hblocked : pattern.isBlocked declarationChars = true) :
    Absent pattern (variableText word marks name value) :=
  .of_isBlocked hblocked fun c hc => mem_declarationChars (h.isDeclarationChar c hc)

end IsDeclared

/-! ## Pairs of characters -/

/-- A pair of characters in a text of two parts stands in one of them, or half in each. -/
theorem pair_cases {front back before behind : List Char} {c d : Char}
    (h : front ++ back = before ++ c :: d :: behind) :
    (c ∈ front ∧ d ∈ front) ∨ (front = before ++ [c] ∧ back = d :: behind) ∨
      ∃ more, before = front ++ more ∧ back = more ++ c :: d :: behind := by
  rcases List.append_eq_append_iff.mp h with ⟨more, rfl, hback⟩ | ⟨more, rfl, hback⟩
  · exact Or.inr (Or.inr ⟨more, rfl, hback⟩)
  · cases more with
    | nil => exact Or.inr (Or.inr ⟨[], by simp, hback.symm⟩)
    | cons c' more =>
        obtain ⟨rfl, hrest⟩ := List.cons.inj hback
        cases more with
        | nil => exact Or.inr (Or.inl ⟨rfl, hrest.symm⟩)
        | cons d' more =>
            obtain ⟨rfl, -⟩ := List.cons.inj hrest
            exact Or.inl ⟨by simp, by simp⟩

/-- A text is cut in one way only behind the last character that is not of the class. -/
theorem append_inj_of_class_right {p : Char → Bool} {xs ys xs' ys' : List Char}
    (h : xs ++ ys = xs' ++ ys') (hys : ∀ c ∈ ys, p c = true) (hys' : ∀ c ∈ ys', p c = true)
    (hxs : ∀ c, xs.getLast? = some c → p c = false)
    (hxs' : ∀ c, xs'.getLast? = some c → p c = false) : xs = xs' ∧ ys = ys' := by
  have hreverse := congrArg List.reverse h
  rw [List.reverse_append, List.reverse_append] at hreverse
  obtain ⟨hback, hfront⟩ := append_inj_of_class hreverse
    (fun c hc => hys c (List.mem_reverse.mp hc)) (fun c hc => hys' c (List.mem_reverse.mp hc))
    (by rwa [List.head?_reverse]) (by rwa [List.head?_reverse])
  exact ⟨List.reverse_inj.mp hfront, List.reverse_inj.mp hback⟩

/-- A letter of a declaration in front of a mark is the last one of the word or of the name. -/
theorem mark_behind_letter {before behind : List Char} {d : Char}
    (h : IsDeclared word marks name value)
    (heq : variableText word marks name value = before ++ c :: d :: behind)
    (hc : c.isAlpha = true) (hd : isMarkChar d = true) :
    (word = before ++ [c] ∧
        d :: behind = marks ++ (name ++ ([' ', '=', ' '] ++ (value ++ [';'])))) ∨
      (word ++ (marks ++ name) = before ++ [c] ∧
        d :: behind = [' ', '=', ' '] ++ (value ++ [';'])) := by
  have hmark : Text.isWordChar d = false := isWordChar_of_isMarkChar hd
  have hletter {c : Char} (hc : c.isAlpha = true) : Text.isWordChar c = true :=
    isWordChar_of_isNameHead (Bool.or_eq_true_iff.mpr (Or.inl hc))
  have hnotWord : d ∉ word := by
    intro hmem
    rw [hletter (h.word d hmem)] at hmark
    cases hmark
  have hnotName : d ∉ name := by
    intro hmem
    rw [h.name.isName.isWordChar d hmem] at hmark
    cases hmark
  have hnotMarks : c ∉ marks := by
    intro hmem
    have hplain := isWordChar_of_isMarkChar (h.marks c hmem).1
    rw [hletter hc] at hplain
    cases hplain
  have hnotRest : c ∉ [' ', '=', ' '] ++ (value ++ [';']) := by
    have hplain : ∀ c ∈ [' ', '=', ' '] ++ (value ++ [';']), c.isAlpha = false := by
      refine List.forall_mem_append.mpr ⟨Syntax.forall_of_all rfl,
        List.forall_mem_append.mpr ⟨?_, Syntax.forall_of_all rfl⟩⟩
      exact fun c hc => isAlpha_of_isValueChar (h.value c hc)
    intro hmem
    rw [hplain c hmem] at hc
    cases hc
  rcases pair_cases heq with ⟨-, hmem⟩ | ⟨hword, hrest⟩ | ⟨more, rfl, hrest⟩
  · exact absurd hmem hnotWord
  · exact Or.inl ⟨hword, hrest.symm⟩
  · rcases pair_cases hrest with ⟨hmem, -⟩ | ⟨hmarks, -⟩ | ⟨more', rfl, hbehind⟩
    · exact absurd hmem hnotMarks
    · exact absurd (hmarks ▸ List.mem_append_right _ (List.mem_singleton_self c)) hnotMarks
    · rcases pair_cases hbehind with ⟨-, hmem⟩ | ⟨hname, hlast⟩ | ⟨more'', -, hlast⟩
      · exact absurd hmem hnotName
      · exact Or.inr ⟨by rw [hname]; simp, hlast.symm⟩
      · exact absurd (hlast ▸ by simp) hnotRest

/-! ## Words and blanks -/

/-- A character with which the second one of two words begins in a pattern. -/
def isPhraseChar (c : Char) : Bool :=
  Text.isWordChar c || oneIn ".*" c

/-- Behind a letter and blanks no further word begins. -/
def NoPhrase (text : List Char) : Prop :=
  ∀ before c blank blanks d behind, text = before ++ c :: blank :: (blanks ++ d :: behind) →
    c.isAlpha = true → isGapChar blank = true → (∀ b ∈ blanks, isGapChar b = true) →
      isPhraseChar d = false

/-- In a typed declaration only the name stands in front of a blank, and an equality sign behind. -/
theorem IsDeclared.noPhrase {marks' : List Char} (h : IsDeclared word marks name value)
    (hmarks : marks = '[' :: marks') : NoPhrase (variableText word marks name value) := by
  intro before c blank blanks d behind heq hc hblank hblanks
  rcases mark_behind_letter h heq hc (isMarkChar_of_isGapChar hblank) with ⟨-, hrest⟩ | ⟨-, hrest⟩
  · rw [hmarks] at hrest
    rw [(List.cons.inj hrest).1] at hblank
    cases hblank
  · -- behind the name there is one blank only
    have hequal : blanks ++ d :: behind = '=' :: (' ' :: (value ++ [';'])) :=
      (List.cons.inj hrest).2
    cases blanks with
    | nil =>
        rw [(List.cons.inj hequal).1]
        rfl
    | cons b blanks =>
        have hb := hblanks b List.mem_cons_self
        rw [(List.cons.inj hequal).1] at hb
        cases hb

/-- Every text that the pattern spells begins with a character of the class. -/
def Begins (p : Char → Bool) (pattern : Pattern) : Prop :=
  ∀ text groups, Spells pattern text groups → ∃ c rest, text = c :: rest ∧ p c = true

namespace Begins

variable {p test : Char → Bool} {pattern : Pattern} {parts : List Pattern}

theorem run {least : Nat} (hleast : 0 < least) (h : ∀ c, test c = true → p c = true) :
    Begins p (.run least test) := by
  intro text groups hspells
  cases hspells with
  | run hlength hall =>
      cases text with
      | nil => exact absurd hlength (Nat.not_le.mpr hleast)
      | cons c rest => exact ⟨c, rest, rfl, h c (hall c List.mem_cons_self)⟩

theorem literal {text : String} {rest : List Char} (htext : text.toList = c :: rest)
    (hc : p c = true) : Begins p (literal text) := by
  intro spelled groups hspells
  exact ⟨c, rest, (eq_of_spells_exactly hspells).1.trans htext, hc⟩

theorem seq (h : Begins p pattern) (second : Pattern) : Begins p (.seq pattern second) := by
  intro text groups hspells
  cases hspells with
  | seq hfirst _ =>
      obtain ⟨c, rest, rfl, hc⟩ := h _ _ hfirst
      exact ⟨c, _, rfl, hc⟩

/-- In front of a pattern stands another one that may be missing. -/
theorem optional {second : Pattern} (h : Begins p pattern) (h' : Begins p second) :
    Begins p (.seq (optional pattern) second) := by
  intro text groups hspells
  cases hspells with
  | seq hfirst hsecond =>
      cases hfirst with
      | altFirst hfirst =>
          obtain ⟨c, rest, rfl, hc⟩ := h _ _ hfirst
          exact ⟨c, _, rfl, hc⟩
      | altSecond hfirst =>
          cases hfirst
          exact h' _ _ hsecond

end Begins

/-- A word that ends in a letter, blanks and the beginning of another word are not spelled. -/
theorem NoPhrase.not_spells {first : String} {front piece : List Char} {next : List Pattern}
    {groups : List (Nat × List Char)} (h : NoPhrase text) (hfirst : first.toList = front ++ [c])
    (hc : c.isAlpha = true) (hnext : Begins isPhraseChar (chain next)) (hpiece : piece <:+: text) :
    ¬ Spells (chain (literal first :: space :: next)) piece groups := by
  intro hspells
  cases hspells with
  | seq hword hspells =>
  cases hspells with
  | @seq _ _ blanks _ _ _ hspace hspells =>
  cases hspace with
  | run hlength hblanks =>
  obtain ⟨hliteral, -⟩ := eq_of_spells_exactly hword
  obtain ⟨d, rest, rfl, hd⟩ := hnext _ _ hspells
  obtain ⟨before, behind, rfl⟩ := hpiece
  cases blanks with
  | nil => cases hlength
  | cons blank blanks =>
      obtain ⟨hblank, hblanks⟩ := List.forall_mem_cons.mp hblanks
      have hnot := h (before ++ front) c blank blanks d (rest ++ behind)
        (by rw [hliteral, hfirst]; simp) hc hblank hblanks
      rw [hd] at hnot
      cases hnot

/-- Nor is anything in which they follow one another. -/
theorem NoPhrase.absent {first : String} {front : List Char} {parts next : List Pattern}
    (h : NoPhrase text) (count : Nat) (hparts : parts.drop count = literal first :: space :: next)
    (hfirst : first.toList = front ++ [c]) (hc : c.isAlpha = true)
    (hnext : Begins isPhraseChar (chain next)) : Absent (chain parts) text := by
  refine .of_not_spells fun piece groups hpiece hspells => ?_
  obtain ⟨piece', groups', hpiece', hspells'⟩ := hspells.exists_drop _ count
  rw [hparts] at hspells'
  exact h.not_spells hfirst hc hnext (hpiece'.trans hpiece) hspells'

end StepTrace.Lowering
