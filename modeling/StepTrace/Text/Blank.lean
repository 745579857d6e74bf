/-!
# Blank characters

The blank characters are those with the Unicode property White_Space; the zero-width
space and the byte-order mark are not among them. Trimming removes them from one end
or from both.

* `isBlank_of_isWhitespace`: the blanks of ASCII text are blank here too.
* `trimStart_append`: trimming at the front only takes a front part away.
* `infix_trim`: what is left by trimming is a piece of the text.
-/

namespace StepTrace.Text

/-- A character with the Unicode property White_Space. -/
def isBlank (c : Char) : Bool :=
  let n := c.toNat
  (9 ≤ n && n ≤ 13) || n == 0x20 || n == 0x85 || n == 0xa0 || n == 0x1680 ||
    (0x2000 ≤ n && n ≤ 0x200a) || n == 0x2028 || n == 0x2029 || n == 0x202f ||
    n == 0x205f || n == 0x3000

theorem isBlank_of_isWhitespace {c : Char} (h : c.isWhitespace) : isBlank c := by
  simp only [Char.isWhitespace, Bool.or_eq_true, decide_eq_true_eq] at h
  rcases h with ((rfl | rfl) | rfl) | rfl <;> decide

/-- The text without the blanks at its front. -/
def trimStart (text : List Char) : List Char :=
  text.dropWhile isBlank

/-- The text without the blanks at its end. -/
def trimEnd (text : List Char) : List Char :=
  (text.reverse.dropWhile isBlank).reverse

/-- The text without the blanks at either end. -/
def trim (text : List Char) : List Char :=
  trimEnd (trimStart text)

theorem trimStart_append (text : List Char) :
    text.takeWhile isBlank ++ trimStart text = text :=
  List.takeWhile_append_dropWhile

theorem infix_trim (text : List Char) : trim text <:+: text := by
  have hend (text : List Char) : trimEnd text <+: text := by
    unfold trimEnd
    rw [← List.reverse_suffix, List.reverse_reverse]
    exact List.dropWhile_suffix _
  exact (hend _).isInfix.trans (List.dropWhile_suffix _).isInfix

/-- The first run of characters that are not blank, if there is one. -/
def firstWord? (text : List Char) : Option (List Char) :=
  match (trimStart text).takeWhile (! isBlank ·) with
  | [] => none
  | word => some word

end StepTrace.Text
