import StepTrace.Text.Lines
import StepTrace.Viewer.Highlight

/-!
# The source pane

The pane shows the program with the line of the current step in colour and a mark beside
every line that has a capture. While the reader steps, the current line is kept in one row;
only the ends of the program move it. The first time it stands in the middle.

* `SourceScroll.settle`: where the pane stands once it is drawn.
-/

namespace StepTrace.Viewer

/-- Which line stands first, counted from zero, and in which row the current line is to
stand. -/
structure SourceScroll where
  offset : Nat
  target : Option Nat
deriving DecidableEq, Repr

/-- The position of a pane that has never been drawn. -/
def SourceScroll.initial : SourceScroll :=
  ⟨0, none⟩

/-- The position of a pane with `visible` rows that shows a program of `total` lines, the
current one being number `line`, or none if that is zero. -/
def SourceScroll.settle (scroll : SourceScroll) (line total visible : Nat) : SourceScroll :=
  let target := min (scroll.target.getD (visible / 2)) (visible - 1)
  let offset := if 0 < line ∧ line ≤ total then (line - 1) - target else scroll.offset
  ⟨min offset (total - visible), some target⟩

/-- The mark beside a line. -/
def gutterMark (current captured : Bool) : String :=
  if current then "▶" else if captured then "·" else " "

/-- A number, moved to the right in four places. -/
def fourPlaces (n : Nat) : String :=
  let digits := toString n
  String.ofList (List.replicate (4 - digits.length) ' ') ++ digits

/-- A line with its number and its mark. -/
def sourceLine (current captured : Bool) (number : Nat) (text : List Char) : List Span :=
  let style := if current then (Style.ofColor Palette.secondary).strong
    else .ofColor Palette.comment
  let spans := highlight text
  let spans := if current then
      spans.map fun span => { span with style := span.style.on Palette.ground }
    else spans
  ⟨fourPlaces number ++ " ", style⟩ :: ⟨gutterMark current captured ++ " ", style⟩ :: spans

/-- Draws the pane and says where it then stands. -/
def sourcePane (width height : Nat) (focused : Bool) (source : String) (line : Nat)
    (captureLines : List Nat) (scroll : SourceScroll) : Picture × SourceScroll :=
  let lines := Text.lines source.toList
  let visible := visibleRows height
  let scroll := scroll.settle line lines.length visible
  let shown := ((lines.drop scroll.offset).take visible).mapIdx fun k text =>
    let number := scroll.offset + k + 1
    sourceLine (number == line) (captureLines.contains number) number text
  (framed (Palette.border focused) .plain " Source " width height (row .plain .left) shown,
    scroll)

end StepTrace.Viewer
