/-!
# Lines of a text

A line ends at a newline. `splitLines` cuts at every newline and so has one piece more
than the text has newlines; `lines` is the reader's view of it: a carriage return
directly before the newline belongs to the line end, and a text that ends in a newline
has no further empty line.

* `length_splitLines`: the number of pieces is one more than the number of newlines.
* `joinLines_splitLines`: putting the newlines back gives the text.
-/

namespace StepTrace.Text

/-- The number of newlines in a text. -/
def newlines (text : List Char) : Nat :=
  text.count '\n'

theorem newlines_append (front back : List Char) :
    newlines (front ++ back) = newlines front + newlines back :=
  List.count_append

/-- A text has no newlines if none of its characters is one. -/
theorem newlines_eq_zero {text : List Char} : newlines text = 0 ↔ '\n' ∉ text :=
  List.count_eq_zero

/-- The pieces between the newlines. -/
def splitLines : List Char → List (List Char)
  | [] => [[]]
  | c :: rest =>
    if c = '\n' then [] :: splitLines rest
    else match splitLines rest with
      | [] => [[c]]
      | line :: others => (c :: line) :: others

/-- The pieces with a newline between any two of them. -/
def joinLines : List (List Char) → List Char
  | [] => []
  | [line] => line
  | line :: others => line ++ '\n' :: joinLines others

theorem splitLines_ne_nil (text : List Char) : splitLines text ≠ [] := by
  cases text with
  | nil => simp [splitLines]
  | cons c rest =>
    simp only [splitLines]
    split
    · simp
    · split <;> simp

theorem length_splitLines (text : List Char) :
    (splitLines text).length = newlines text + 1 := by
  induction text with
  | nil => rfl
  | cons c rest ih =>
    by_cases h : c = '\n'
    · simp [splitLines, newlines, h] at ih ⊢
      omega
    · have hne := splitLines_ne_nil rest
      cases hs : splitLines rest with
      | nil => exact absurd hs hne
      | cons line others =>
        simp [splitLines, newlines, h, hs] at ih ⊢
        omega

theorem joinLines_splitLines (text : List Char) : joinLines (splitLines text) = text := by
  induction text with
  | nil => rfl
  | cons c rest ih =>
    have hne := splitLines_ne_nil rest
    cases hs : splitLines rest with
    | nil => exact absurd hs hne
    | cons line others =>
      rw [hs] at ih
      by_cases h : c = '\n'
      · simp [splitLines, h, hs, joinLines, ih]
      · cases others with
        | nil => simp_all [splitLines, joinLines]
        | cons next more => simp_all [splitLines, joinLines]

/-- A line without the carriage return that ends it. -/
def dropReturn (line : List Char) : List Char :=
  if line.getLast? = some '\r' then line.dropLast else line

/-- The lines a reader sees. The last piece is a line only if it has characters, and
its carriage return, which no newline follows, stays. -/
def lines (text : List Char) : List (List Char) :=
  let pieces := splitLines text
  let last := pieces.getLast?.getD []
  pieces.dropLast.map dropReturn ++ (if last.isEmpty then [] else [last])

/-- The lines of a string, each with its number, counted from one. -/
def numberedLines (text : String) : List (Nat × String) :=
  (lines text.toList).mapIdx fun k line => (k + 1, String.ofList line)

end StepTrace.Text
