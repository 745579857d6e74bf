import StepTrace.Viewer.Picture

/-!
# Rows of a list

In a list each span of a line begins where the spans before it end, measured as whole texts,
and is written over what the row shows. Letters that form a ligature across two clusters make
a text shorter than its clusters, so spans may overlap. A cluster without width goes into the
cell before it, and a wide one empties the cells that it covers.

* `length_listRow`: a row has exactly the cells that it is given.
-/

namespace StepTrace.Viewer

/-- The row with a text written into a cell in place of what was there. -/
def writeCell (row : List Cell) (place : Nat) (text : List Char) (style : Style) : List Cell :=
  row.modify place fun cell => ⟨String.ofList text, cell.style.patch style⟩

/-- The row with a text written into a cell behind what was there. -/
def extendCell (row : List Cell) (place : Nat) (text : List Char) (style : Style) :
    List Cell :=
  row.modify place fun cell => ⟨cell.symbol ++ String.ofList text, cell.style.patch style⟩

/-- The row with so many cells from a place on emptied. -/
def clearCells (row : List Cell) (place : Nat) : Nat → List Cell
  | 0 => row
  | n + 1 => clearCells (row.modify place fun _ => .blank .plain) (place + 1) n

/-- The row with clusters written from `place` on, up to the first that would leave it. The
span began at `start`, and `first` tells whether none of it has been written. -/
def writeClusters (style : Style) (start : Nat) :
    Bool → Nat → List Cell → List (List Char) → List Cell
  | _, _, row, [] => row
  | first, place, row, cluster :: rest =>
    let size := Text.textWidth cluster
    if place + size > row.length then row
    else
      let written :=
        if first then writeCell row place cluster style
        else if place = start then extendCell row place cluster style
        else if size = 0 then extendCell row (place - 1) cluster style
        else writeCell row place cluster style
      writeClusters style start false (place + size)
        (clearCells written (place + 1) (size - 1)) rest

/-- The row with spans written from `place` on. A span without width is passed over. -/
def writeSpans : Nat → List Cell → List Span → List Cell
  | _, row, [] => row
  | place, row, span :: rest =>
    let size := Text.textWidth span.text.toList
    if size = 0 then writeSpans place row rest
    else if place ≥ row.length then row
    else writeSpans (place + size)
      (writeClusters span.style place true place row span.clusters) rest

/-- A row of `width` cells of a list, with spans on an empty ground. -/
def listRow (width : Nat) (spans : List Span) : List Cell :=
  writeSpans 0 (List.replicate width (.blank .plain)) spans

theorem length_clearCells (row : List Cell) (place n : Nat) :
    (clearCells row place n).length = row.length := by
  induction n generalizing row place with
  | zero => rfl
  | succ n ih => simp [clearCells, ih]

theorem length_writeClusters (style : Style) (start : Nat) (first : Bool) (place : Nat)
    (row : List Cell) (clusters : List (List Char)) :
    (writeClusters style start first place row clusters).length = row.length := by
  induction clusters generalizing first place row with
  | nil => rfl
  | cons cluster rest ih =>
    simp only [writeClusters]
    split
    · rfl
    · rw [ih, length_clearCells]
      repeat' split
      all_goals simp [writeCell, extendCell]

theorem length_writeSpans (place : Nat) (row : List Cell) (spans : List Span) :
    (writeSpans place row spans).length = row.length := by
  induction spans generalizing place row with
  | nil => rfl
  | cons span rest ih =>
    simp only [writeSpans]
    repeat' split
    · exact ih place row
    · rfl
    · rw [ih, length_writeClusters]

theorem length_listRow (width : Nat) (spans : List Span) :
    (listRow width spans).length = width := by
  simp [listRow, length_writeSpans]

end StepTrace.Viewer
