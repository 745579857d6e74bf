import StepTrace.Structure
import StepTrace.Viewer.Picture

/-!
# The structure pane

The pane shows the estimate of the running time, the deepest nesting of loops and the
functions that the text declares.
-/

namespace StepTrace.Viewer

/-- The lines of the pane. -/
def structureLines (report : Structure.Report) : List (List Span) :=
  let label (text : String) : Span := ⟨text, .ofColor Palette.comment⟩
  let functions := report.functions.map fun f =>
    [⟨"  ", .plain⟩, ⟨f.name, .ofColor Palette.function⟩, label ("  line " ++ toString f.line)]
  [[label "complexity  ",
      ⟨report.growth.display, (Style.ofColor Palette.secondary).strong⟩, label "  (estimate)"],
    [label "max nesting ", ⟨toString report.maxNesting, .ofColor Palette.number⟩]] ++
  if functions.isEmpty then [[label "no functions"]] else [label "functions"] :: functions

/-- Draws the pane. -/
def structurePane (width height : Nat) (focused : Bool) (report : Structure.Report) : Picture :=
  framed (Palette.border focused) .plain " Structure " width height (row .plain .left)
    (structureLines report)

end StepTrace.Viewer
