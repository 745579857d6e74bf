import StepTrace.Trace.Report
import StepTrace.Viewer.Picture

/-!
# The status bar

The left half tells the step and the latest message, the right half the keys and whether
the reader is at one of the ends.
-/

namespace StepTrace.Viewer

/-- Black text in bold on a background. -/
def badge (text : String) (color : Color) : Span :=
  ⟨text, ((Style.ofColor .black).on color).strong⟩

/-- Text on the ground of the bar. -/
def barText (text : String) (color : Color) : Span :=
  ⟨text, (Style.ofColor color).on Palette.ground⟩

/-- The name of a key. -/
def keyName (text : String) : Span :=
  ⟨text, (Style.ofColor .black).on Palette.comment⟩

/-- Whether the run failed. -/
def hasFailed : Status → Bool
  | .failed _ => true
  | _ => false

/-- The left half of the bar. -/
def progressSpans (status : Status) (position total : Nat) (message : String) : List Span :=
  let failed := hasFailed status
  let step := if total = 0 then " Step 0/0 "
    else " Step " ++ toString (position + 1) ++ "/" ++ toString total ++ " "
  [badge step (if failed then Palette.error else Palette.primary),
    barText " | " Palette.comment,
    barText (" " ++ message ++ " ") (if failed then Palette.error else Palette.text)]

/-- The keys and what they do. -/
def keySpans : List Span :=
  let separator := [barText "│" Palette.comment, barText " " Palette.text]
  [keyName " ←/→ ", barText " step " Palette.text] ++ separator ++
    [keyName " ⎵ ", barText " play " Palette.text] ++ separator ++
    [keyName " ↵ / ⌫ ", barText " end/start " Palette.text] ++ separator ++
    [keyName "q", barText " quit " Palette.text]

/-- What is said about the position, if it is worth saying. -/
def positionBadge? (status : Status) (position total : Nat) (playing : Bool) : Option Span :=
  if playing then some (badge " ▶ PLAYING " Palette.secondary)
  else if position + 1 ≥ total then
    some (badge (if hasFailed status then " ERROR " else " END ") Palette.error)
  else if position = 0 then some (badge " START " Palette.success)
  else none

/-- Draws the bar. Everything is in its first row; further ones show the ground. -/
def statusBar (width height : Nat) (status : Status) (position total : Nat) (playing : Bool)
    (message : String) : Picture :=
  let ground := Style.plain.on Palette.ground
  let half := share 50 width
  let position? := (positionBadge? status position total playing).toList.flatMap fun span =>
    [barText "│" Palette.comment, span]
  let first := row ground .left half (progressSpans status position total message) ++
    row ground .right (width - half) (keySpans ++ position?)
  (first :: List.replicate (height - 1) (row ground .left width [])).take height

end StepTrace.Viewer
