import StepTrace.Text.Cluster
import StepTrace.Text.Width
import StepTrace.Viewer.Style

/-!
# Pictures made of cells

A picture is a list of rows of cells. A row shows a line of styled text as far as it fits:
the line is cut before the first cluster for which there is no room, and the rest of the row
shows the ground. A frame is drawn around rows, with a title on its upper edge. On a screen
a wide symbol covers the cell behind it, which then stays empty.

* `length_row`: a row has exactly the cells that it is given.
* `framed`: the picture of a pane.
* `onScreen`: a picture as a screen shows it.
-/

namespace StepTrace.Viewer

/-- A piece of text in one style. -/
structure Span where
  text : String
  style : Style
deriving DecidableEq, Repr

/-- What one place of a picture shows. -/
structure Cell where
  symbol : String
  style : Style
deriving DecidableEq, Repr

/-- Rows of cells, from top to bottom. -/
abbrev Picture := List (List Cell)

/-- An empty place on a ground. -/
def Cell.blank (ground : Style) : Cell :=
  ⟨" ", ground⟩

/-- Clusters with a style, as they are put into cells one by one. -/
abbrev Glyphs := List (List Char × Style)

/-- The clusters of a span; a line feed that stands alone is none. -/
def Span.clusters (span : Span) : List (List Char) :=
  (Text.clusters span.text.toList).filter (· ≠ ['\n'])

/-- The glyphs of spans on a ground; what takes no cell is left out. -/
def glyphs (ground : Style) (spans : List Span) : Glyphs :=
  spans.flatMap fun span =>
    (span.clusters.filter fun cluster => Text.textWidth cluster > 0).map
      fun cluster => (cluster, ground.patch span.style)

/-- The glyphs that fit into `width` cells, up to the first for which no room is left. One
that would not fit into an empty row of `full` cells either is passed over. -/
def fitting (full : Nat) : Nat → Glyphs → Glyphs
  | _, [] => []
  | width, (cluster, style) :: rest =>
    let size := Text.textWidth cluster
    if size > full then fitting full width rest
    else if size > width then []
    else (cluster, style) :: fitting full (width - size) rest

/-- The number of cells of glyphs. -/
def extent (glyphs : Glyphs) : Nat :=
  (glyphs.map fun glyph => Text.textWidth glyph.1).foldr (· + ·) 0

/-- The cells of a glyph: the ground shows behind the first one. -/
def glyphCells (ground : Style) (glyph : List Char × Style) : List Cell :=
  ⟨String.ofList glyph.1, glyph.2⟩ ::
    List.replicate (Text.textWidth glyph.1 - 1) (.blank ground)

/-- On which side of a row its text stands. -/
inductive Side where
  | left
  | right
deriving DecidableEq, Repr

/-- A row of `width` cells that shows spans on a ground. -/
def row (ground : Style) (side : Side) (width : Nat) (spans : List Span) : List Cell :=
  let shown := fitting width width (glyphs ground spans)
  let cells := shown.flatMap (glyphCells ground)
  let space := List.replicate (width - cells.length) (Cell.blank ground)
  match side with
  | .left => (cells ++ space).take width
  | .right => (space ++ cells).take width

theorem length_row (ground : Style) (side : Side) (width : Nat) (spans : List Span) :
    (row ground side width spans).length = width := by
  cases side <;> simp [row] <;> omega

/-- One edge of a frame: two corners and what is between them. -/
def edge (style : Style) (first middle last : String) (width : Nat) : List Cell :=
  match width with
  | 0 => []
  | 1 => [⟨first, style⟩]
  | n + 2 => ⟨first, style⟩ :: List.replicate n ⟨middle, style⟩ ++ [⟨last, style⟩]

/-- The upper edge of a frame, the title written over it behind the corner. -/
def titled (style : Style) (title : String) (width : Nat) : List Cell :=
  let base := edge style "┌" "─" "┐" width
  let shown := (fitting (width - 2) (width - 2) (glyphs style [⟨title, style⟩])).flatMap
    (glyphCells style)
  base.take 1 ++ shown ++ base.drop (1 + shown.length)

/-- A row between the sides of a frame. -/
def sided (style : Style) (width : Nat) (inner : List Cell) : List Cell :=
  match width with
  | 0 => []
  | 1 => [⟨"│", style⟩]
  | _ => ⟨"│", style⟩ :: inner ++ [⟨"│", style⟩]

/-- A frame of `width` times `height` cells with lines of text inside, each drawn as a row of
the cells between the sides. -/
def framed (border ground : Style) (title : String) (width height : Nat)
    (draw : Nat → List Span → List Cell) (lines : List (List Span)) : Picture :=
  match height with
  | 0 => []
  | 1 => [titled border title width]
  | n + 2 =>
    let inner := (lines.take n).map (draw (width - 2))
    let space := List.replicate (n - inner.length) (row ground .left (width - 2) [])
    titled border title width :: (inner ++ space).map (sided border width) ++
      [edge border "└" "─" "┘" width]

/-- Two pictures side by side. -/
def beside (a b : Picture) : Picture :=
  List.zipWith (· ++ ·) a b

/-- A row as a screen shows it; `isCovered` tells whether the symbol before it covers its
first cell. -/
def rowOnScreen (isCovered : Bool) : List Cell → List Cell
  | [] => []
  | cell :: rest =>
    (if isCovered then .blank .plain else cell) ::
      rowOnScreen (Text.textWidth cell.symbol.toList > 1) rest

/-- A picture as a screen shows it. -/
def onScreen (picture : Picture) : Picture :=
  picture.map (rowOnScreen false)

theorem length_rowOnScreen (isCovered : Bool) (row : List Cell) :
    (rowOnScreen isCovered row).length = row.length := by
  induction row generalizing isCovered with
  | nil => rfl
  | cons cell rest ih => simp [rowOnScreen, ih]

/-- The number of cells of the first part when a length is divided by percent; edges fall
on the nearest cell. -/
def share (percent length : Nat) : Nat :=
  (percent * length + 50) / 100

/-- The number of rows between the upper and the lower edge of a frame, at least one. -/
def visibleRows (height : Nat) : Nat :=
  max (height - 2) 1

/-- The text of a row. -/
def rowText (row : List Cell) : String :=
  String.join (row.map Cell.symbol)

/-- The pieces of a row in which neighbouring cells have one style. -/
def runs : List Cell → List Span
  | [] => []
  | cell :: rest =>
    match runs rest with
    | [] => [⟨cell.symbol, cell.style⟩]
    | span :: others =>
      if span.style = cell.style then ⟨cell.symbol ++ span.text, cell.style⟩ :: others
      else ⟨cell.symbol, cell.style⟩ :: span :: others

end StepTrace.Viewer
