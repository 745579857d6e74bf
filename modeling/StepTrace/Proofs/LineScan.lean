import StepTrace.Capture.LineMap
import StepTrace.Proofs.Pieces

/-!
# The scan over a whole text

The kinds of the lines are found line by line: every line is scanned on its own, and what goes
on behind its end is carried over. To compare the scan with the lexer, which knows no lines,
the scan is taken to stand anywhere in the text (`kindsAhead`). From there it goes over a
blank, a comment or a lexeme at a time.

* `allLines`: the lines of a text, and what is behind its last newline.
* `kindsAhead`: the kinds of the line on which the scan stands and of the lines behind it.
-/

namespace StepTrace

/-! ## Lines -/

namespace Text

/-- The lines of a text and, even if it is empty, the piece behind the last newline. -/
def allLines (text : List Char) : List (List Char) :=
  let pieces := splitLines text
  pieces.dropLast.map dropReturn ++ [pieces.getLast?.getD []]

/-- What is left of the line on which the text starts. -/
def lineOf (text : List Char) : List Char :=
  (allLines text).head?.getD []

/-- The lines behind the line on which the text starts. -/
def linesBehind (text : List Char) : List (List Char) :=
  (allLines text).tail

theorem lines_prefix_allLines (text : List Char) : lines text <+: allLines text := by
  unfold lines allLines
  refine (List.prefix_append_right_inj _).mpr ?_
  split
  · exact List.nil_prefix
  · exact List.prefix_rfl

theorem length_allLines (text : List Char) : (allLines text).length = newlines text + 1 := by
  have h := length_splitLines text
  simp only [allLines, List.length_append, List.length_map, List.length_dropLast,
    List.length_cons, List.length_nil]
  omega

theorem allLines_ne_nil (text : List Char) : allLines text ≠ [] := by
  simp [allLines]

theorem allLines_eq (text : List Char) : allLines text = lineOf text :: linesBehind text := by
  cases h : allLines text with
  | nil => exact absurd h (allLines_ne_nil text)
  | cons line others => simp [lineOf, linesBehind, h]

theorem allLines_newline (rest : List Char) : allLines ('\n' :: rest) = [] :: allLines rest := by
  have hne := splitLines_ne_nil rest
  cases h : splitLines rest with
  | nil => exact absurd h hne
  | cons line others => simp [allLines, splitLines, h, dropReturn]

/-- The text begins with the end of a line that has a carriage return. -/
def startsReturn : List Char → Bool
  | '\r' :: '\n' :: _ => true
  | _ => false

theorem allLines_return (rest : List Char) :
    allLines ('\r' :: '\n' :: rest) = [] :: allLines rest := by
  have hne := splitLines_ne_nil rest
  cases h : splitLines rest with
  | nil => exact absurd h hne
  | cons line others => simp [allLines, splitLines, h, dropReturn]

theorem allLines_cons {c : Char} {rest : List Char} (hc : c ≠ '\n')
    (hr : startsReturn (c :: rest) = false) :
    allLines (c :: rest) = (c :: lineOf rest) :: linesBehind rest := by
  have hne := splitLines_ne_nil rest
  cases h : splitLines rest with
  | nil => exact absurd h hne
  | cons line others =>
      cases others with
      | nil => simp [allLines, lineOf, linesBehind, splitLines, h, hc]
      | cons next more =>
          have hdrop : dropReturn (c :: line) = c :: dropReturn line := by
            cases line with
            | cons d line =>
                simp only [dropReturn, List.getLast?_cons_cons]
                split <;> simp
            | nil =>
                have hnewline : ∃ behind, rest = '\n' :: behind := by
                  cases rest with
                  | nil => simp [splitLines] at h
                  | cons d behind =>
                      by_cases hd : d = '\n'
                      · exact ⟨behind, by rw [hd]⟩
                      · exfalso
                        simp only [splitLines, if_neg hd] at h
                        split at h <;> simp at h
                obtain ⟨behind, rfl⟩ := hnewline
                have hcr : c ≠ '\r' := by
                  rintro rfl
                  simp [startsReturn] at hr
                simp [dropReturn, hcr]
          simp [allLines, lineOf, linesBehind, splitLines, h, hc, hdrop]

theorem lines_newline (rest : List Char) : lines ('\n' :: rest) = [] :: lines rest := by
  have hne := splitLines_ne_nil rest
  cases h : splitLines rest with
  | nil => exact absurd h hne
  | cons line others => simp [lines, splitLines, h, dropReturn]

/-- A character that ends no line makes no line less, and there is the line on which it stands. -/
theorem length_lines_cons {c : Char} (hc : c ≠ '\n') (rest : List Char) :
    0 < (lines (c :: rest)).length ∧ (lines rest).length ≤ (lines (c :: rest)).length := by
  have hne := splitLines_ne_nil rest
  cases h : splitLines rest with
  | nil => exact absurd h hne
  | cons line others =>
      cases others with
      | nil =>
          have hline : (if line = [] then [] else [line]).length ≤ 1 := by split <;> simp
          simpa [lines, splitLines, h, hc] using hline
      | cons next more => simp [lines, splitLines, h, hc]

/-- The line on which a character stands is a line. -/
theorem newlines_lt_lines {c : Char} (hc : c ≠ '\n') (front back : List Char) :
    newlines front < (lines (front ++ c :: back)).length := by
  induction front with
  | nil => exact (length_lines_cons hc back).1
  | cons d front ih =>
      by_cases hd : d = '\n'
      · rw [hd, List.cons_append, lines_newline, newlines, List.count_cons_self]
        exact Nat.succ_lt_succ ih
      · rw [newlines, List.count_cons_of_ne hd]
        exact ih.trans_le (length_lines_cons hd _).2
theorem lineOf_newline (rest : List Char) : lineOf ('\n' :: rest) = [] := by
  simp [lineOf, allLines_newline]

theorem lineOf_return (rest : List Char) : lineOf ('\r' :: '\n' :: rest) = [] := by
  simp [lineOf, allLines_return]

theorem lineOf_cons {c : Char} {rest : List Char} (hc : c ≠ '\n')
    (hr : startsReturn (c :: rest) = false) : lineOf (c :: rest) = c :: lineOf rest := by
  simp [lineOf, allLines_cons hc hr]

/-- A carriage return at the end of a line is blank; any other first character of a text is the
first one of its line. -/
theorem startsReturn_of_not_blank {c : Char} {rest : List Char} (hc : isBlank c = false) :
    startsReturn (c :: rest) = false := by
  unfold startsReturn
  split
  · rename_i heq
    cases heq
    simp [isBlank] at hc
  · rfl

end Text

namespace Capture

open Text

/-! ## The scan ahead -/

/-- The kinds of the line on which the scan stands in front of the text and of the lines behind
it; `before` is the state in which the scan entered the line. -/
def kindsAhead (before s : Scan) (text : List Char) : List LineKind :=
  let behind := s.chars 0 (lineOf text)
  kindOf before behind :: kindsFrom behind.nextLine (linesBehind text)

theorem kindsFrom_allLines (s : Scan) (text : List Char) :
    kindsFrom s (allLines text) = kindsAhead s s text := by
  rw [allLines_eq, kindsFrom]
  rfl

theorem kindsFrom_append (s : Scan) (lines more : List (List Char)) :
    kindsFrom s lines <+: kindsFrom s (lines ++ more) := by
  induction lines generalizing s with
  | nil => exact List.nil_prefix
  | cons line others ih =>
      rw [List.cons_append, kindsFrom, kindsFrom]
      exact (List.prefix_cons_inj _).mpr (ih _)

/-- The kinds of the lines are found by the scan ahead from the start of the text. -/
theorem lineMap_prefix (source : String) : lineMap source <+: kindsAhead {} {} source.toList := by
  obtain ⟨more, hmore⟩ := lines_prefix_allLines source.toList
  rw [← kindsFrom_allLines, ← hmore]
  exact kindsFrom_append _ _ more

variable {before s s' : Scan} {c : Char} {rest more : List Char}

theorem kindsAhead_newline (before s : Scan) (rest : List Char) :
    kindsAhead before s ('\n' :: rest) =
      kindOf before s :: kindsAhead s.nextLine s.nextLine rest := by
  rw [kindsAhead, lineOf, linesBehind, allLines_newline]
  exact congrArg _ (kindsFrom_allLines _ rest)

/-- A carriage return at the end of a line is passed over. -/
theorem kindsAhead_return (before s : Scan) (hr : startsReturn (c :: rest) = true) :
    kindsAhead before s (c :: rest) = kindsAhead before s rest := by
  unfold startsReturn at hr
  split at hr
  · rename_i heq
    cases heq
    rw [kindsAhead, kindsAhead, lineOf, linesBehind, lineOf, linesBehind, allLines_return,
      allLines_newline]
  · cases hr

/-- The scan goes over a character that takes no other with it. -/
theorem kindsAhead_char (hc : c ≠ '\n') (hr : startsReturn (c :: rest) = false)
    (h : s.char c (lineOf rest) = (s', 0)) :
    kindsAhead before s (c :: rest) = kindsAhead before s' rest := by
  rw [kindsAhead, kindsAhead, lineOf_cons hc hr, linesBehind, allLines_cons hc hr, List.tail_cons,
    Scan.chars, h]

/-- The scan goes over a character that takes the next one with it. -/
theorem kindsAhead_pair {d : Char} (hc : c ≠ '\n') (hr : startsReturn (c :: d :: more) = false)
    (hd : d ≠ '\n') (hrd : startsReturn (d :: more) = false)
    (h : s.char c (lineOf (d :: more)) = (s', 1)) :
    kindsAhead before s (c :: d :: more) = kindsAhead before s' more := by
  rw [kindsAhead, kindsAhead, lineOf_cons hc hr, linesBehind, allLines_cons hc hr, List.tail_cons,
    Scan.chars, h, lineOf_cons hd hrd, linesBehind, allLines_cons hd hrd, List.tail_cons]
  rfl

end Capture

end StepTrace
