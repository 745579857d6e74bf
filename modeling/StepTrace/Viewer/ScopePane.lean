import StepTrace.Text.Quoted
import StepTrace.Trace.Step
import StepTrace.Viewer.ListRow

/-!
# The scope pane

The pane shows what the names stand for at a step, one line for each. What differs from the
step before is set off. An array of arrays is shown row by row, and what lies deeper than
three levels is left out.

* `valueSpans`: a value on one line.
* `scopePane`: the picture, and how far the pane is scrolled once it is drawn.
-/

namespace StepTrace.Viewer

/-- How many levels of containers are shown on one line. -/
def shownLevels : Nat := 3

/-- Text that accompanies a value. -/
def aside (text : String) : Span :=
  ⟨text, .ofColor Palette.comment⟩

/-- A number of a document as it is shown. -/
def numberText (json : Json) : String :=
  json.compact

mutual
/-- A value on one line, of which `levels` levels of containers are shown. -/
def valueSpans (levels : Nat) : Json → List Span
  | .null => [⟨"null", .ofColor Palette.literal⟩]
  | .bool b => [⟨if b then "true" else "false", .ofColor Palette.literal⟩]
  | .int n => [⟨numberText (.int n), .ofColor Palette.number⟩]
  | .number d => [⟨numberText (.number d), .ofColor Palette.number⟩]
  | .string s => [⟨Text.quoted s, .ofColor Palette.string⟩]
  | .array items =>
    match levels with
    | 0 => [aside "[...]"]
    | levels + 1 => aside "[" :: itemSpans levels true items ++ [aside "]"]
  | .object fields =>
    match levels with
    | 0 => [aside "\x7b...\x7d"]
    | levels + 1 =>
      aside "\x7b" :: fieldSpans levels true fields ++
        [aside (if fields.isEmpty then "\x7d" else " \x7d")]

/-- The items of an array; `first` tells whether one came before. -/
def itemSpans (levels : Nat) (first : Bool) : List Json → List Span
  | [] => []
  | item :: rest =>
    (if first then [] else [aside ", "]) ++ valueSpans levels item ++
      itemSpans levels false rest

/-- The fields of an object; `first` tells whether one came before. -/
def fieldSpans (levels : Nat) (first : Bool) : List (String × Json) → List Span
  | [] => []
  | (name, value) :: rest =>
    aside (if first then " " else ", ") :: ⟨name ++ ": ", .ofColor Palette.text⟩ ::
      valueSpans levels value ++ fieldSpans levels false rest
end

/-- The items of an array. -/
def arrayItems? : Json → Option (List Json)
  | .array items => some items
  | _ => none

/-- The rows of an array that has only arrays, and at least one. -/
def matrixRows? (value : Json) : Option (List Json) :=
  (arrayItems? value).filter fun rows =>
    ! rows.isEmpty && rows.all fun row => (arrayItems? row).isSome

/-- The length of the longest row. -/
def widestRow (rows : List Json) : Nat :=
  (rows.map fun row => ((arrayItems? row).getD []).length).foldl max 0

/-- The lines of an entry. -/
def entryLines (changed : Bool) (name : String) (value : Json) : List (List Span) :=
  let style := if changed then (Style.ofColor Palette.changed).strong else .ofColor Palette.text
  let heading : List Span := [⟨name, style⟩, aside " = "]
  match matrixRows? value with
  | some rows =>
    (heading ++ [aside (toString rows.length ++ "×" ++ toString (widestRow rows))]) ::
      rows.map fun row => ⟨"    ", .plain⟩ :: valueSpans (shownLevels - 1) row
  | none => [heading ++ valueSpans shownLevels value]

/-- The lines of a step; an entry has changed if the step before had another value for the
name or none. -/
def stepLines (step : Step) (previous : Option Step) : List (List Span) :=
  step.entries.flatMap fun (name, value) =>
    let changed := previous.any fun before => before.entry? name != some value
    entryLines changed name value

/-- Draws the pane and says how far it is then scrolled. -/
def scopePane (width height : Nat) (focused : Bool) (step previous : Option Step)
    (scroll : Nat) : Picture × Nat :=
  let border := Palette.border focused
  let title := match step with
    | some step => " Scope (line " ++ toString step.line ++ ") "
    | none => " Scope "
  match step.filter fun step => ! step.entries.isEmpty with
  | none =>
    let ground := Style.ofColor Palette.comment
    (framed border ground title width height (row ground .left) [[⟨"(no bindings)", .plain⟩]], scroll)
  | some step =>
    let lines := stepLines step previous
    let scroll := min scroll (lines.length - visibleRows height)
    (framed border .plain title width height listRow (lines.drop scroll), scroll)

end StepTrace.Viewer
