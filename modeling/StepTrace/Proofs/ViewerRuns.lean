import StepTrace.Viewer.Model

/-!
# Runs of the viewer

A reader presses keys, and the screen is drawn in between, each time in the size that it then has.
Keys move the cursor over the steps of the trace and the row in which the current line is to stand;
drawing brings that row into the pane and the line into the row. So the cursor stays among the
steps, and whatever came before, the line of the current step is in the window once the pane is
drawn (`currentStep_inView`).

* `Cursor.position_advance`: as many steps as there are.
* `SourceScroll.settle_spec`: where a pane stands once it is drawn.
* `Model.Shows.after`: every viewer goes on showing the run that it began with.
-/

namespace StepTrace.Viewer

/-! ## Cursors -/

namespace Cursor

theorem forward_eq_none {cursor : Cursor} (h : cursor.forward? = none) :
    cursor.length ≤ cursor.position + 1 := by
  unfold forward? at h
  split at h
  · assumption
  · cases h

/-- A cursor goes as many steps ahead as it is told to, as long as there are any. -/
theorem position_advance (cursor : Cursor) (n : Nat) :
    (cursor.advance n).1 = min n (cursor.length - 1 - cursor.position) ∧
      (cursor.advance n).2.position =
        cursor.position + min n (cursor.length - 1 - cursor.position) ∧
      (cursor.advance n).2.length = cursor.length := by
  induction n generalizing cursor with
  | zero => simp [advance]
  | succ n ih =>
      cases hnext : cursor.forward? with
      | none =>
          have hend := forward_eq_none hnext
          have hnone : cursor.advance (n + 1) = (0, cursor) := by rw [advance, hnext]
          simp only [hnone, and_true]
          omega
      | some next =>
          have hadvance : cursor.advance (n + 1) =
              ((next.advance n).1 + 1, (next.advance n).2) := by rw [advance, hnext]
          obtain ⟨hposition, hlength⟩ := position_forward hnext
          obtain ⟨hsteps, hmoved, hkept⟩ := ih next
          have hle := next.position_le
          simp only [hadvance]
          omega

end Cursor

/-! ## The position of the source pane -/

/-- Once a pane with rows is drawn, the current line has one of them as its row, the window does not
go beyond the last line, and it holds the current line if that is a line of the program. -/
theorem SourceScroll.settle_spec (scroll : SourceScroll) (line total : Nat) {visible : Nat}
    (h : 0 < visible) :
    (∃ row, (scroll.settle line total visible).target = some row ∧ row < visible) ∧
      (scroll.settle line total visible).offset ≤ total - visible ∧
      (0 < line → line ≤ total → (scroll.settle line total visible).offset ≤ line - 1 ∧
        line - 1 < (scroll.settle line total visible).offset + visible) := by
  have hrow : min (scroll.target.getD (visible / 2)) (visible - 1) < visible := by omega
  unfold settle
  refine ⟨⟨_, rfl, hrow⟩, Nat.min_le_right _ _, fun hpos hle => ?_⟩
  dsimp only
  rw [if_pos ⟨hpos, hle⟩]
  omega

/-! ## Keys and drawings -/

/-- What happens to a viewer. -/
inductive Event where
  | press (key : Key)
  /-- The viewer is drawn on a screen of this size. -/
  | draw (width height : Nat)

/-- The keys that step or jump: the arrows to the sides, both ends, and the digits from one on. -/
def Key.moves : Key → Bool
  | .left | .right | .enter | .backspace => true
  | .char c => '1' ≤ c && c ≤ '9'
  | _ => false

namespace Model

/-- The viewer behind an event. -/
def perform (viewer : Model) : Event → Model
  | .press key => viewer.press key
  | .draw width height => (viewer.draw width height).2

/-- The viewer behind events. -/
def after (viewer : Model) (events : List Event) : Model :=
  events.foldl perform viewer

/-- The viewer shows the report of a run of the source, and its cursor goes over the steps of it. -/
structure Shows (viewer : Model) (source : String) (report : Report) : Prop where
  source_eq : viewer.source = source
  report_eq : viewer.report = report
  length_eq : viewer.cursor.length = report.trace.size

variable {viewer : Model} {source : String} {report : Report}

theorem Shows.start (source : String) (captureLines : List Nat) (report : Report)
    (structureReport : Structure.Report) :
    (Model.start source captureLines report structureReport).Shows source report :=
  ⟨rfl, rfl, rfl⟩

theorem Shows.moved (h : viewer.Shows source report) {cursor : Cursor}
    (hlength : cursor.length = viewer.cursor.length) (message : String) :
    (viewer.moved cursor message).Shows source report :=
  ⟨h.source_eq, h.report_eq, hlength.trans h.length_eq⟩

/-- Where nothing changes but what the reader looks at, the viewer shows what it showed before. -/
theorem Shows.of_eq (h : viewer.Shows source report) {other : Model}
    (hsource : other.source = viewer.source) (hreport : other.report = viewer.report)
    (hcursor : other.cursor = viewer.cursor) : other.Shows source report :=
  ⟨hsource.trans h.source_eq, hreport.trans h.report_eq, hcursor ▸ h.length_eq⟩

theorem Shows.pressChar (h : viewer.Shows source report) (c : Char) :
    (viewer.pressChar c).Shows source report := by
  unfold Model.pressChar
  split
  · exact h.of_eq rfl rfl rfl
  · split
    · exact h.moved (viewer.cursor.position_advance _).2.2 _
    · exact h

theorem Shows.press (h : viewer.Shows source report) (key : Key) :
    (viewer.press key).Shows source report := by
  cases key with
  | left =>
      unfold Model.press
      dsimp only
      split
      · rename_i hback
        exact h.moved (Cursor.position_backward hback).2 _
      · exact h.moved rfl _
  | right =>
      unfold Model.press
      dsimp only
      split
      · rename_i hforward
        exact h.moved (Cursor.position_forward hforward).2 _
      · exact h.moved rfl _
  | enter =>
      have hlength : viewer.cursor.toEnd.length = viewer.cursor.length := rfl
      exact h.moved hlength _
  | backspace =>
      have hlength : viewer.cursor.toStart.length = viewer.cursor.length := rfl
      exact h.moved hlength _
  | tab => exact h.of_eq rfl rfl rfl
  | backTab => exact h.of_eq rfl rfl rfl
  | up =>
      unfold Model.press
      cases viewer.focus <;> exact h.of_eq rfl rfl rfl
  | down =>
      unfold Model.press
      cases viewer.focus <;> exact h.of_eq rfl rfl rfl
  | space again => cases again <;> exact h.of_eq rfl rfl rfl
  | char c => exact h.pressChar c
  | other => exact h

theorem Shows.perform (h : viewer.Shows source report) (event : Event) :
    (viewer.perform event).Shows source report := by
  cases event with
  | press key => exact h.press key
  | draw width height => exact ⟨h.source_eq, h.report_eq, h.length_eq⟩

theorem Shows.after (h : viewer.Shows source report) (events : List Event) :
    (viewer.after events).Shows source report := by
  induction events generalizing viewer with
  | nil => exact h
  | cons event events ih => exact ih (h.perform event)

/-- A digit is neither of the keys that quit, and it stands for its number of steps. -/
theorem digitChar_spec {n : Nat} (hpos : 1 ≤ n) (hle : n ≤ 9) :
    (n.digitChar = 'q' || n.digitChar = 'Q') = false ∧
      ('1' ≤ n.digitChar && n.digitChar ≤ '9') = true ∧ n.digitChar.toNat - 48 = n := by
  have hdigits : ∀ k < 9, ((k + 1).digitChar = 'q' || (k + 1).digitChar = 'Q') = false ∧
      ('1' ≤ (k + 1).digitChar && (k + 1).digitChar ≤ '9') = true ∧
        (k + 1).digitChar.toNat - 48 = k + 1 := by
    decide
  obtain ⟨k, rfl⟩ := Nat.exists_eq_add_of_le' hpos
  exact hdigits k hle

/-- A digit steps ahead as often as it says, as long as there are any steps. -/
theorem position_press_digit (viewer : Model) {n : Nat} (hpos : 1 ≤ n) (hle : n ≤ 9) :
    (viewer.press (.char n.digitChar)).cursor.position =
      viewer.cursor.position + min n (viewer.cursor.length - 1 - viewer.cursor.position) := by
  obtain ⟨hquits, hdigit, hcount⟩ := digitChar_spec hpos hle
  have hpress : viewer.press (.char n.digitChar) = viewer.pressChar n.digitChar := rfl
  rw [hpress, pressChar, hquits, hdigit, hcount]
  exact (viewer.cursor.position_advance n).2.1

/-- A key that steps or jumps stops playback, also where there is no further step. -/
theorem isPlaying_press (viewer : Model) {key : Key} (h : key.moves = true) :
    (viewer.press key).isPlaying = false := by
  cases key with
  | left =>
      unfold Model.press
      dsimp only
      split <;> rfl
  | right =>
      unfold Model.press
      dsimp only
      split <;> rfl
  | enter => rfl
  | backspace => rfl
  | char c =>
      have hquits : (c = 'q' || c = 'Q') = false := by
        refine Bool.eq_false_iff.mpr fun hquit => ?_
        rw [Bool.or_eq_true, decide_eq_true_iff, decide_eq_true_iff] at hquit
        rcases hquit with rfl | rfl <;> exact absurd h (by decide)
      have hdigit : ('1' ≤ c && c ≤ '9') = true := h
      have hpress : viewer.press (.char c) = viewer.pressChar c := rfl
      rw [hpress, pressChar, hquits, hdigit]
      rfl
  | up | down | tab | backTab | space _ | other => cases h

/-- The viewer that is drawn, in its source pane. -/
theorem sourceScroll_draw (viewer : Model) (width height : Nat) :
    (viewer.draw width height).2.sourceScroll =
      viewer.sourceScroll.settle viewer.currentLine (Text.lines viewer.source.toList).length
        (visibleRows (height - 1)) :=
  rfl

end Model

/-- **The current step stays in view.** Let the steps of a report lie on lines of the source, and
let any keys have been pressed and the viewer been drawn any number of times, in any order. Then
the cursor is among the steps, a digit goes as far as it says or there are steps, and keys that step
or jump stop playback. Once the viewer is drawn again, in whatever size, the row of the current line
is a row of the pane, the window does not go beyond the last line, and it holds the line of the
current step. -/
theorem currentStep_inView {source : String} {report : Report}
    (hlines : ∀ step ∈ report.trace.toList,
      1 ≤ step.line ∧ step.line ≤ (Text.lines source.toList).length)
    (captureLines : List Nat) (structureReport : Structure.Report) (events : List Event) :
    let viewer := (Model.start source captureLines report structureReport).after events
    (viewer.step? = report.trace[viewer.cursor.position]? ∧
      if report.trace.size = 0 then viewer.cursor.position = 0
      else viewer.cursor.position < report.trace.size) ∧
    (∀ n, 1 ≤ n → n ≤ 9 → (viewer.press (.char n.digitChar)).cursor.position =
      viewer.cursor.position + min n (report.trace.size - 1 - viewer.cursor.position)) ∧
    (∀ key, key.moves = true → (viewer.press key).isPlaying = false) ∧
    ∀ width height, let drawn := (viewer.draw width height).2
      let visible := visibleRows (height - 1)
      (∃ row, drawn.sourceScroll.target = some row ∧ row < visible) ∧
      drawn.sourceScroll.offset ≤ (Text.lines source.toList).length - visible ∧
      ∀ step, drawn.step? = some step → drawn.sourceScroll.offset ≤ step.line - 1 ∧
        step.line - 1 < drawn.sourceScroll.offset + visible := by
  intro viewer
  have hshows : viewer.Shows source report :=
    (Model.Shows.start source captureLines report structureReport).after events
  have hposition := viewer.cursor.position_le
  rw [hshows.length_eq] at hposition
  refine ⟨⟨?_, ?_⟩, fun n hpos hle => ?_, fun key hkey => viewer.isPlaying_press hkey, ?_⟩
  · rw [Model.step?, hshows.report_eq]
  · split <;> omega
  · rw [viewer.position_press_digit hpos hle, hshows.length_eq]
  · intro width height drawn visible
    have hrows : 0 < visible := Nat.lt_of_lt_of_le Nat.one_pos (Nat.le_max_right _ _)
    have hscroll : drawn.sourceScroll =
        viewer.sourceScroll.settle viewer.currentLine (Text.lines source.toList).length visible := by
      rw [← hshows.source_eq]
      exact viewer.sourceScroll_draw width height
    obtain ⟨hrow, hend, hline⟩ := viewer.sourceScroll.settle_spec viewer.currentLine
      (Text.lines source.toList).length hrows
    rw [← hscroll] at hrow hend hline
    refine ⟨hrow, hend, fun step hstep => ?_⟩
    have hstep' : viewer.step? = some step := hstep
    have hcurrent : viewer.currentLine = step.line := by
      rw [Model.currentLine, hstep']
      rfl
    have hmem : step ∈ report.trace.toList := by
      rw [Model.step?, hshows.report_eq] at hstep'
      exact Array.mem_toList_iff.mpr (Array.mem_of_getElem? hstep')
    obtain ⟨hpos, hle⟩ := hlines step hmem
    rw [hcurrent] at hline
    exact hline hpos hle

theorem currentStep_inView_twoLines :
    let viewer := (Model.start "a\nb" [] ⟨#[⟨1, []⟩, ⟨2, []⟩], .completed⟩
      (Structure.analyze "a\nb")).after [.draw 80 6, .press .up, .press .right, .press (.char '9')]
    viewer.cursor.position < 2 ∧ ∀ width height,
      (viewer.draw width height).2.sourceScroll.offset ≤ 2 - visibleRows (height - 1) := by
  have htwo : (Text.lines "a\nb".toList).length = 2 := by decide +kernel
  have hlines : ∀ step ∈ (#[⟨1, []⟩, ⟨2, []⟩] : Trace).toList,
      1 ≤ step.line ∧ step.line ≤ (Text.lines "a\nb".toList).length := by
    rw [htwo]
    exact List.forall_mem_cons.mpr ⟨by decide, List.forall_mem_singleton.mpr (by decide)⟩
  let report : Report := ⟨#[⟨1, []⟩, ⟨2, []⟩], .completed⟩
  have hreport : ∀ step ∈ report.trace.toList,
      1 ≤ step.line ∧ step.line ≤ (Text.lines "a\nb".toList).length := hlines
  obtain ⟨⟨-, hposition⟩, -, -, hdrawn⟩ := currentStep_inView hreport [] (Structure.analyze "a\nb")
    [.draw 80 6, .press .up, .press .right, .press (.char '9')]
  refine ⟨hposition, fun width height => ?_⟩
  rw [← htwo]
  exact (hdrawn width height).2.1

end StepTrace.Viewer
