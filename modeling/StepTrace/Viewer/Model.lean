import StepTrace.Session
import StepTrace.Viewer.Cursor
import StepTrace.Viewer.ScopePane
import StepTrace.Viewer.SourcePane
import StepTrace.Viewer.StatusBar
import StepTrace.Viewer.StructurePane

/-!
# The trace viewer

The viewer shows a finished run and lets the reader go through its steps by keys. Drawing
settles the positions of the panes, so it changes the viewer too.

* `Model.press`: what a key does.
* `Model.draw`: the picture of the whole viewer.
-/

namespace StepTrace.Viewer

/-- The panes that can have the focus. -/
inductive Pane where
  | source
  | scope
  /-- The estimated structure of the program. -/
  | outline
deriving DecidableEq, Repr

/-- The pane that gets the focus next. -/
def Pane.next : Pane → Pane
  | .source => .scope
  | .scope => .outline
  | .outline => .source

/-- The pane that had the focus before. -/
def Pane.previous : Pane → Pane
  | .source => .outline
  | .scope => .source
  | .outline => .scope

/-- The keys that the viewer knows. -/
inductive Key where
  | left
  | right
  | up
  | down
  | tab
  | backTab
  | enter
  | backspace
  /-- The space bar; `again` if it was pressed only a moment ago. -/
  | space (again : Bool)
  | char (c : Char)
  | other
deriving DecidableEq, Repr

/-- A viewer: the run it shows and where the reader stands in it. -/
structure Model where
  source : String
  captureLines : List Nat
  report : Report
  structureReport : Structure.Report
  cursor : Cursor
  focus : Pane
  sourceScroll : SourceScroll
  scopeScroll : Nat
  message : String
  isPlaying : Bool
  hasQuit : Bool

namespace Model

/-- The viewer of a run before any key. -/
def start (source : String) (captureLines : List Nat) (report : Report)
    (structureReport : Structure.Report) : Model :=
  { source, captureLines, report, structureReport,
    cursor := .start report.trace.size,
    focus := .source,
    sourceScroll := .initial,
    scopeScroll := 0,
    message := report.status.display,
    isPlaying := false,
    hasQuit := false }

/-- The viewer of the run of a session. A text that is no program has no captures. -/
def ofSession (session : Session) (limit : Option Nat) : Except Refusal Model := do
  let host ← session.host
  let report ← session.run limit
  let captureLines := match session.instrumented with
    | .ok program => program.captureLines
    | .error _ => []
  return start host.source captureLines report session.structureReport

/-- The step at the cursor. -/
def step? (viewer : Model) : Option Step :=
  viewer.report.trace[viewer.cursor.position]?

/-- The step before the one at the cursor. -/
def previousStep? (viewer : Model) : Option Step :=
  if viewer.cursor.position = 0 then none
  else viewer.report.trace[viewer.cursor.position - 1]?

/-- The line of the step at the cursor, zero if there is no step. -/
def currentLine (viewer : Model) : Nat :=
  (viewer.step?.map Step.line).getD 0

/-- What is said when there is no further step. -/
def endMessage (viewer : Model) : String :=
  match viewer.report.status with
  | .completed => "End of trace"
  | status => status.display

/-- The viewer with another cursor and message, playback stopped. -/
def moved (viewer : Model) (cursor : Cursor) (message : String) : Model :=
  { viewer with cursor, message, isPlaying := false }

/-- The viewer with the row of the current line changed, once it has one. -/
def retargeted (viewer : Model) (change : Nat → Nat) : Model :=
  { viewer with sourceScroll :=
      { viewer.sourceScroll with target := viewer.sourceScroll.target.map change } }

/-- Begins or stops playback. -/
def togglePlay (viewer : Model) : Model :=
  let isPlaying := ! viewer.isPlaying
  { viewer with isPlaying, message := if isPlaying then "Playing..." else "Paused" }

/-- What a character key does. -/
def pressChar (viewer : Model) (c : Char) : Model :=
  if c = 'q' || c = 'Q' then { viewer with hasQuit := true }
  else if '1' ≤ c && c ≤ '9' then
    let (steps, cursor) := viewer.cursor.advance (c.toNat - 48)
    viewer.moved cursor ("Stepped forward " ++ toString steps ++ " step(s)")
  else viewer

/-- What a key does. -/
def press (viewer : Model) : Key → Model
  | .left =>
    match viewer.cursor.backward? with
    | some cursor => viewer.moved cursor "Stepped backward"
    | none => viewer.moved viewer.cursor "Already at the first step"
  | .right =>
    match viewer.cursor.forward? with
    | some cursor => viewer.moved cursor "Stepped forward"
    | none => viewer.moved viewer.cursor viewer.endMessage
  | .enter => viewer.moved viewer.cursor.toEnd "Jumped to end"
  | .backspace => viewer.moved viewer.cursor.toStart "Jumped to start"
  | .tab => { viewer with focus := viewer.focus.next }
  | .backTab => { viewer with focus := viewer.focus.previous }
  | .up =>
    match viewer.focus with
    | .source => viewer.retargeted (· + 1)
    | .scope => { viewer with scopeScroll := viewer.scopeScroll - 1 }
    | .outline => viewer
  | .down =>
    match viewer.focus with
    | .source => viewer.retargeted (· - 1)
    | .scope => { viewer with scopeScroll := viewer.scopeScroll + 1 }
    | .outline => viewer
  | .space again => if again then viewer else viewer.togglePlay
  | .char c => viewer.pressChar c
  | .other => viewer

/-- Draws the viewer: the source on the left, the scope above the structure on the right,
and the status bar in the last row. -/
def draw (viewer : Model) (width height : Nat) : Picture × Model :=
  let upper := height - 1
  let left := share 60 width
  let top := share 65 upper
  let (source, sourceScroll) := sourcePane left upper (viewer.focus == .source) viewer.source
    viewer.currentLine viewer.captureLines viewer.sourceScroll
  let (scope, scopeScroll) := scopePane (width - left) top (viewer.focus == .scope)
    viewer.step? viewer.previousStep? viewer.scopeScroll
  let structurePicture := structurePane (width - left) (upper - top)
    (viewer.focus == .outline) viewer.structureReport
  let bar := statusBar width 1 viewer.report.status viewer.cursor.position
    viewer.report.trace.size viewer.isPlaying viewer.message
  ((beside source (scope ++ structurePicture) ++ bar).take height,
    { viewer with sourceScroll, scopeScroll })

end Model

end StepTrace.Viewer
