import StepTrace.Proofs.Erasure
import StepTrace.Proofs.ParsedTree
import StepTrace.Proofs.RecordedSteps
import StepTrace.Proofs.StatementLists
import StepTrace.Proofs.Transparency
import StepTrace.Proofs.Words

/-!
# Where captures stand

Captures are placed behind simple statements on executable lines, where the innermost function
is declared with `async`, and nowhere else (`placed_captures`). Placing is complete but for the
condition and the step of a `for` loop, which are not visited: in the functions there no
capture is placed at all (`complete_iff`, `functionInClause`).

Of the functions around a capture only the innermost decides. The lines of a plain function
whose body has several lines are not executable, and no capture is placed on them; a body that
begins and ends on one line is not kept out in this way, and a function declared with `async`
has captures in it (`around_async_iff`, `asyncInPlain`).
-/

namespace StepTrace.Capture

open Syntax

/-! ## One list -/

section Lists

variable {placing : Array LineKind} {suspending : Bool}

/-- A statement of a list with captures is the first one, or the capture behind it, or one of
the rest of the list. -/
theorem split_placeStmts {first stmt : Stmt} {rest before after : List Stmt}
    (h : placeStmts placing suspending (first :: rest) = before ++ stmt :: after) :
    (stmt = placeStmt placing suspending first ∧
        after = captureBehind placing suspending first ++ placeStmts placing suspending rest) ∨
      (∃ line, first.simpleLine? = some line ∧ suspending = true ∧
        isExecutable placing line = true ∧ stmt = .capture line ∧
        before = [placeStmt placing suspending first]) ∨
      ∃ front before', before = front ++ before' ∧
        placeStmts placing suspending rest = before' ++ stmt :: after := by
  rw [placeStmts] at h
  cases before with
  | nil =>
      obtain ⟨hstmt, hafter⟩ := List.cons.inj h
      exact Or.inl ⟨hstmt.symm, hafter.symm⟩
  | cons placed before =>
      obtain ⟨rfl, htail⟩ := List.cons.inj h
      rcases captureBehind_eq placing suspending first with
        hnone | ⟨line, hline, hs, hexec, hone⟩
      · rw [hnone, List.nil_append] at htail
        exact Or.inr (Or.inr ⟨[_], before, rfl, htail⟩)
      · rw [hone, List.singleton_append] at htail
        cases before with
        | nil =>
            have hstmt := (List.cons.inj htail).1
            exact Or.inr (Or.inl ⟨line, hline, hs, hexec, hstmt.symm, rfl⟩)
        | cons capture before =>
            have hrest := (List.cons.inj htail).2
            exact Or.inr (Or.inr ⟨[_, capture], before, rfl, hrest⟩)

/-- A capture in a list with captures stands behind the statement for which it was placed. -/
theorem behind_simple {stmts : List Stmt} (hplain : ∀ line, Stmt.capture line ∉ stmts)
    {before after : List Stmt} {line : Nat}
    (h : placeStmts placing suspending stmts = before ++ .capture line :: after) :
    ∃ others, ∃ stmt ∈ stmts, before = others ++ [placeStmt placing suspending stmt] ∧
      stmt.simpleLine? = some line ∧ suspending = true ∧ isExecutable placing line = true := by
  induction stmts generalizing before with
  | nil => simp [placeStmts] at h
  | cons first rest ih =>
      rcases split_placeStmts h with
        ⟨hfirst, -⟩ | ⟨line', hline, hs, hexec, hcapture, rfl⟩ | ⟨front, before', rfl, hrest⟩
      · have hne : ∀ n, first ≠ .capture n := fun n heq => hplain n (by simp [heq])
        exact absurd hfirst.symm (placeStmt_ne_capture placing suspending hne line)
      · cases hcapture
        exact ⟨[], first, List.mem_cons_self, rfl, hline, hs, hexec⟩
      · have hothers : ∀ n, Stmt.capture n ∉ rest := fun n hmem =>
          hplain n (List.mem_cons_of_mem _ hmem)
        obtain ⟨others, stmt, hstmt, rfl, hbehind⟩ := ih hothers hrest
        refine ⟨front ++ others, stmt, List.mem_cons_of_mem _ hstmt, ?_, hbehind⟩
        rw [List.append_assoc]

/-- Where captures may stand there is one behind every simple statement on an executable
line. -/
theorem followed_by_capture {stmts before after : List Stmt} {stmt : Stmt} {line : Nat}
    (h : placeStmts placing true stmts = before ++ stmt :: after)
    (hline : stmt.simpleLine? = some line) (hexec : isExecutable placing line = true) :
    ∃ others, after = .capture line :: others := by
  induction stmts generalizing before with
  | nil => simp [placeStmts] at h
  | cons first rest ih =>
      rcases split_placeStmts h with
        ⟨rfl, rfl⟩ | ⟨line', -, -, -, rfl, -⟩ | ⟨front, before', -, hrest⟩
      · rw [simpleLine?_placeStmt] at hline
        rw [captureBehind_of_executable placing hline hexec]
        exact ⟨_, rfl⟩
      · cases hline
      · exact ih hrest

/-- A list has the captures of the simple statements on executable lines, if captures may stand
in it. -/
theorem capture_mem_placeStmts {stmts : List Stmt} (hplain : ∀ line, Stmt.capture line ∉ stmts)
    (line : Nat) : Stmt.capture line ∈ placeStmts placing suspending stmts ↔
      suspending = true ∧ isExecutable placing line = true ∧
        ∃ stmt ∈ stmts, stmt.simpleLine? = some line := by
  constructor
  · intro hmem
    obtain ⟨before, after, h⟩ := List.append_of_mem hmem
    obtain ⟨-, stmt, hstmt, -, hline, hs, hexec⟩ := behind_simple hplain h
    exact ⟨hs, hexec, stmt, hstmt, hline⟩
  · rintro ⟨rfl, hexec, stmt, hstmt, hline⟩
    obtain ⟨before, after, rfl⟩ := List.append_of_mem hstmt
    clear hplain hstmt
    induction before with
    | nil =>
        rw [List.nil_append, placeStmts, captureBehind_of_executable placing hline hexec]
        simp
    | cons first before ih =>
        rw [List.cons_append, placeStmts]
        exact List.mem_cons_of_mem _ (List.mem_append_right _ ih)

end Lists

/-! ## Lines -/

theorem isExecutable_lineMap {source : String} {line : Nat} :
    isExecutable (lineMap source).toArray line = true ↔
      1 ≤ line ∧ (lineMap source)[line - 1]? = some .executable := by
  rw [isExecutable, Bool.and_eq_true, bne_iff_ne, decide_eq_true_eq, List.getElem?_toArray,
    Nat.one_le_iff_ne_zero]

theorem le_of_executable {source : String} {line : Nat} (hpos : 1 ≤ line)
    (h : (lineMap source)[line - 1]? = some .executable) :
    line ≤ (Text.lines source.toList).length := by
  have hlt : line - 1 < (lineMap source).length := (List.getElem?_eq_some_iff.mp h).1
  rw [lineMap, length_kindsFrom] at hlt
  omega

/-! ## All lists of a program -/

/-- A capture is due behind the statement: it is simple, it starts on the line, which is
executable, and the innermost function around it, if there is one, is declared with
`async`. -/
structure CaptureDue (source : String) (p : Position) (stmt : Stmt) (line : Nat) : Prop where
  simple : stmt.simpleLine? = some line
  suspending : p.suspending = true
  pos : 1 ≤ line
  executable : (lineMap source)[line - 1]? = some .executable

theorem executable_of_placing {map : Array LineKind} {p : Position} {line : Nat}
    (h : isExecutable (p.placing map) line = true) :
    p.inClause = false ∧ isExecutable map line = true := by
  unfold Position.placing at h
  cases hclause : p.inClause with
  | true => simp [hclause, isExecutable] at h
  | false =>
      rw [hclause] at h
      exact ⟨rfl, h⟩

theorem placing_of_not_inClause {p : Position} (h : p.inClause = false) (map : Array LineKind) :
    p.placing map = map := by
  rw [Position.placing, h]
  rfl

/-- The lists in a clause of a loop are left as they are. -/
theorem stmts_place_of_inClause {site : Site} (h : site.position.inClause = true)
    (map : Array LineKind) : (site.place map).stmts = site.stmts := by
  change placeStmts (site.position.placing map) _ site.stmts = site.stmts
  rw [Position.placing, h, if_pos rfl, placeStmts_empty]

theorem stmts_place_of_not_inClause {site : Site} (h : site.position.inClause = false)
    (map : Array LineKind) :
    (site.place map).stmts = placeStmts map site.position.suspending site.stmts := by
  rw [Site.place, placing_of_not_inClause h]

section Sites

variable {source : String} {program : Program} (hplain : captures program = []) {site : Site}
include hplain

/-- The lists of a program without captures have none. -/
theorem capture_not_mem (hsite : site ∈ sites program) (line : Nat) :
    Stmt.capture line ∉ site.stmts := by
  intro hmem
  have hcapture : line ∈ captures program := mem_captures_iff.mpr ⟨site, hsite, hmem⟩
  rw [hplain] at hcapture
  cases hcapture

/-- Every capture stands behind a statement behind which it is due. -/
theorem behind_due (hsite : site ∈ sites (placeStmts (lineMap source).toArray true program))
    {before after : List Stmt} {line : Nat}
    (hstmts : site.stmts = before ++ .capture line :: after) :
    ∃ others stmt, before = others ++ [stmt] ∧ CaptureDue source site.position stmt line := by
  rw [sites_placeStmts] at hsite
  obtain ⟨list, hlist, rfl⟩ := List.mem_map.mp hsite
  obtain ⟨others, stmt, -, hbefore, hline, hs, hexec⟩ :=
    behind_simple (capture_not_mem hplain hlist) hstmts
  obtain ⟨-, hexec⟩ := executable_of_placing hexec
  obtain ⟨hpos, hkind⟩ := isExecutable_lineMap.mp hexec
  refine ⟨others, _, hbefore, ?_, hs, hpos, hkind⟩
  rw [simpleLine?_placeStmt, hline]

/-- The captures of a list are those that are due in it, unless it is in a clause of a loop. -/
theorem capture_mem_place (hsite : site ∈ sites program) (line : Nat) :
    Stmt.capture line ∈ (site.place (lineMap source).toArray).stmts ↔
      site.position.inClause = false ∧
        ∃ stmt ∈ site.stmts, CaptureDue source site.position stmt line := by
  change Stmt.capture line ∈ placeStmts _ _ site.stmts ↔ _
  rw [capture_mem_placeStmts (capture_not_mem hplain hsite)]
  constructor
  · rintro ⟨hs, hexec, stmt, hstmt, hline⟩
    obtain ⟨hclause, hexec⟩ := executable_of_placing hexec
    obtain ⟨hpos, hkind⟩ := isExecutable_lineMap.mp hexec
    exact ⟨hclause, stmt, hstmt, hline, hs, hpos, hkind⟩
  · rintro ⟨hclause, stmt, hstmt, hdue⟩
    rw [placing_of_not_inClause hclause]
    have hexec := isExecutable_lineMap.mpr ⟨hdue.pos, hdue.executable⟩
    exact ⟨hdue.suspending, hexec, stmt, hstmt, hdue.simple⟩

end Sites

/-! ## Soundness -/

theorem Instrumented.mem_captureLines (instrumented : Instrumented) (line : Nat) :
    line ∈ instrumented.captureLines ↔ line ∈ captures instrumented.program := by
  rw [captureLines, mem_eraseReps, List.mem_mergeSort]

/-- The steps of a run are on lines of captures. -/
theorem Instrumented.line_mem_captureLines (instrumented : Instrumented) (bound : Nat)
    (allowance : Option Nat) {step : Step}
    (h : step ∈ (instrumented.runWithin bound allowance).trace) :
    step.line ∈ instrumented.captureLines := by
  have hsound := instrumented.sound_runWithin (fun _ _ => trivial : ∀ x ∈ _, True)
    (fun _ _ => trivial) bound allowance
  rw [← Array.mem_toList_iff, instrumented.trace_eq_steps] at h
  obtain ⟨moment, hmoment, hstep⟩ := List.mem_filterMap.mp h
  have htaken : moment.event = .taken step := by
    cases hevent : moment.event with
    | changed => simp [hevent, Event.step?] at hstep
    | completed line captured => simp [hevent, Event.step?] at hstep
    | called => simp [hevent, Event.step?] at hstep
    | returned value => simp [hevent, Event.step?] at hstep
    | unchecked array => simp [hevent, Event.step?] at hstep
    | untested value => simp [hevent, Event.step?] at hstep
    | taken step' =>
        rw [hevent] at hstep
        cases hstep
        rfl
  rw [mem_captureLines]
  exact (hsound.past moment hmoment step htaken).1

/-- **Captures are placed only where they are due.** Without its captures the program with
captures is the program; every capture stands directly behind a statement behind which it is
due; the capture lines are the lines of the captures. So every step of a run is on such a
line, which is a line of the text and executable. -/
theorem placed_captures {source : String} {program : Program} (h : parse source = .ok program)
    (names : List String) :
    ∃ instrumented, instrumentWith source names = .ok instrumented ∧
      eraseStmts instrumented.program = program ∧
      (∀ site ∈ sites instrumented.program, ∀ before line after,
        site.stmts = before ++ .capture line :: after →
        ∃ others stmt, before = others ++ [stmt] ∧ CaptureDue source site.position stmt line) ∧
      (∀ line, line ∈ instrumented.captureLines ↔
        ∃ site ∈ sites instrumented.program, Stmt.capture line ∈ site.stmts) ∧
      ∀ bound allowance, ∀ step ∈ (instrumented.runWithin bound allowance).trace,
        step.line ∈ instrumented.captureLines ∧
        1 ≤ step.line ∧ step.line ≤ (Text.lines source.toList).length ∧
        (lineMap source)[step.line - 1]? = some .executable := by
  have hplain := captures_parse h
  refine ⟨_, instrumentWith_of_parse h names, erase_placeStmts _ true program hplain, ?_, ?_, ?_⟩
  · intro site hsite before line after hstmts
    exact behind_due hplain hsite hstmts
  · intro line
    rw [Instrumented.mem_captureLines, mem_captures_iff]
  · intro bound allowance step hstep
    have hmem := Instrumented.line_mem_captureLines _ bound allowance hstep
    have hcapture := (Instrumented.mem_captureLines _ _).mp hmem
    obtain ⟨site, hsite, hlist⟩ := mem_captures_iff.mp hcapture
    obtain ⟨before, after, hstmts⟩ := List.append_of_mem hlist
    obtain ⟨-, stmt, -, hdue⟩ := behind_due hplain hsite hstmts
    exact ⟨hmem, hdue.pos, le_of_executable hdue.pos hdue.executable, hdue.executable⟩

theorem placed_captures_true :
    ∃ instrumented, instrumentWith "true;\n" ["x"] = .ok instrumented ∧
      eraseStmts instrumented.program = [.expr (.bool true ⟨1, 1⟩) ⟨1, 1⟩] ∧
      ∀ bound allowance, ∀ step ∈ (instrumented.runWithin bound allowance).trace,
        step.line ∈ instrumented.captureLines := by
  obtain ⟨instrumented, hinstrumented, herase, -, -, hruns⟩ := placed_captures parse_true ["x"]
  refine ⟨instrumented, hinstrumented, herase, fun bound allowance step hstep => ?_⟩
  exact (hruns bound allowance step hstep).1

/-! ## Completeness -/

/-- Every statement behind which a capture is due is followed by it. -/
def Complete (source : String) (program : Program) : Prop :=
  ∀ site ∈ sites program, ∀ before stmt after line, site.stmts = before ++ stmt :: after →
    CaptureDue source site.position stmt line → ∃ others, after = .capture line :: others

/-- Placing is complete, exactly if no capture is due in the functions in the condition or the
step of a `for` loop, which are not visited. -/
theorem complete_iff {source : String} {program : Program} (h : parse source = .ok program)
    (names : List String) :
    ∃ instrumented, instrumentWith source names = .ok instrumented ∧
      (Complete source instrumented.program ↔
        ∀ site ∈ sites program, site.position.inClause = true →
          ∀ stmt ∈ site.stmts, ∀ line, ¬ CaptureDue source site.position stmt line) := by
  have hplain := captures_parse h
  refine ⟨_, instrumentWith_of_parse h names, ?_⟩
  unfold Complete
  dsimp only
  rw [sites_placeStmts]
  constructor
  · intro hcomplete site hsite hclause stmt hstmt line hdue
    obtain ⟨before, after, hstmts⟩ := List.append_of_mem hstmt
    have hplaced : (site.place (lineMap source).toArray).stmts = before ++ stmt :: after := by
      rw [stmts_place_of_inClause hclause, hstmts]
    obtain ⟨others, rfl⟩ :=
      hcomplete _ (List.mem_map_of_mem hsite) before stmt after line hplaced hdue
    refine capture_not_mem hplain hsite line ?_
    rw [hstmts]
    simp
  · intro hnone placed hplaced before stmt after line hstmts hdue
    obtain ⟨site, hsite, rfl⟩ := List.mem_map.mp hplaced
    cases hclause : site.position.inClause with
    | true =>
        rw [stmts_place_of_inClause hclause] at hstmts
        have hstmt : stmt ∈ site.stmts := by
          rw [hstmts]
          simp
        exact absurd hdue (hnone site hsite hclause stmt hstmt line)
    | false =>
        have hs : site.position.suspending = true := hdue.suspending
        rw [stmts_place_of_not_inClause hclause, hs] at hstmts
        have hexec := isExecutable_lineMap.mpr ⟨hdue.pos, hdue.executable⟩
        exact followed_by_capture hstmts hdue.simple hexec

theorem complete_iff_true :
    ∃ instrumented, instrumentWith "true;\n" ["x"] = .ok instrumented ∧
      Complete "true;\n" instrumented.program := by
  obtain ⟨instrumented, hinstrumented, hcomplete⟩ := complete_iff parse_true ["x"]
  refine ⟨instrumented, hinstrumented, hcomplete.mpr ?_⟩
  intro site hsite hclause
  obtain rfl : site = ⟨.top, [.expr (.bool true ⟨1, 1⟩) ⟨1, 1⟩]⟩ := List.mem_singleton.mp hsite
  cases hclause

/-- A loop whose condition calls a function that declares a variable on its second line. -/
def functionInClause : String :=
  "for (; [].map(async v => \x7b\n  let w = v;\n\x7d).length; ) \x7b\x7d\n"

set_option maxRecDepth 8192 in
theorem parse_functionInClause : parse functionInClause = .ok [
    .for none (some (.member (.call (.member (.array [] ⟨1, 8⟩) "map" ⟨1, 10⟩)
      [.item (.function (.mk none ["v"]
        [.declare .letDecl [.mk (.name "w") (some (.variable "v" ⟨2, 11⟩))] ⟨2, 3⟩]
        true true (some (⟨1, 26⟩, ⟨3, 1⟩))) ⟨1, 15⟩)] ⟨1, 14⟩) "length" ⟨3, 3⟩)) none []
      ⟨1, 1⟩] := by
  have htokens : tokenize functionInClause = .ok [⟨.keyword .forKw, ⟨1, 1⟩⟩,
      ⟨.symbol .leftParen, ⟨1, 5⟩⟩, ⟨.symbol .semicolon, ⟨1, 6⟩⟩, ⟨.symbol .leftBracket, ⟨1, 8⟩⟩,
      ⟨.symbol .rightBracket, ⟨1, 9⟩⟩, ⟨.symbol .dot, ⟨1, 10⟩⟩, ⟨.name "map", ⟨1, 11⟩⟩,
      ⟨.symbol .leftParen, ⟨1, 14⟩⟩, ⟨.keyword .asyncKw, ⟨1, 15⟩⟩, ⟨.name "v", ⟨1, 21⟩⟩,
      ⟨.symbol .arrow, ⟨1, 23⟩⟩, ⟨.symbol .leftBrace, ⟨1, 26⟩⟩, ⟨.keyword .letKw, ⟨2, 3⟩⟩,
      ⟨.name "w", ⟨2, 7⟩⟩, ⟨.symbol .assign, ⟨2, 9⟩⟩, ⟨.name "v", ⟨2, 11⟩⟩,
      ⟨.symbol .semicolon, ⟨2, 12⟩⟩, ⟨.symbol .rightBrace, ⟨3, 1⟩⟩, ⟨.symbol .rightParen, ⟨3, 2⟩⟩,
      ⟨.symbol .dot, ⟨3, 3⟩⟩, ⟨.name "length", ⟨3, 4⟩⟩, ⟨.symbol .semicolon, ⟨3, 10⟩⟩,
      ⟨.symbol .rightParen, ⟨3, 12⟩⟩, ⟨.symbol .leftBrace, ⟨3, 14⟩⟩,
      ⟨.symbol .rightBrace, ⟨3, 15⟩⟩, ⟨.endOfInput, ⟨4, 1⟩⟩] := by
    rfl
  unfold parse
  rw [htokens]
  rfl

/-- In the function in the condition of `functionInClause` a capture is missing behind the
declaration. -/
theorem not_complete_functionInClause :
    ∃ instrumented, instrument functionInClause = .ok instrumented ∧
      ¬ Complete functionInClause instrumented.program := by
  refine ⟨_, instrumentWith_of_parse parse_functionInClause _, fun hcomplete => ?_⟩
  have hdue : CaptureDue functionInClause ⟨[true], true⟩
      (.declare .letDecl [.mk (.name "w") (some (.variable "v" ⟨2, 11⟩))] ⟨2, 3⟩) 2 :=
    ⟨rfl, rfl, by decide, by rfl⟩
  obtain ⟨others, h⟩ :=
    hcomplete ⟨_, [_]⟩ (List.mem_of_getElem? (i := 1) rfl) [] _ [] 2 rfl hdue
  cases h

/-! ## Plain functions -/

/-- Every function around a capture is declared with `async`. -/
def AroundAsync (program : Program) : Prop :=
  ∀ site ∈ sites program, ∀ line, Stmt.capture line ∈ site.stmts →
    ∀ isAsync ∈ site.position.around, isAsync = true

/-- Every function around a capture is declared with `async`, exactly if this is so for every
list, outside the clauses of `for` loops, in which a capture is due. -/
theorem around_async_iff {source : String} {program : Program} (h : parse source = .ok program)
    (names : List String) :
    ∃ instrumented, instrumentWith source names = .ok instrumented ∧
      (AroundAsync instrumented.program ↔
        ∀ site ∈ sites program, site.position.inClause = false →
          (∃ stmt ∈ site.stmts, ∃ line, CaptureDue source site.position stmt line) →
          ∀ isAsync ∈ site.position.around, isAsync = true) := by
  have hplain := captures_parse h
  refine ⟨_, instrumentWith_of_parse h names, ?_⟩
  unfold AroundAsync
  dsimp only
  rw [sites_placeStmts]
  constructor
  · rintro hasync site hsite hclause ⟨stmt, hstmt, line, hdue⟩
    have hplaced := List.mem_map_of_mem (f := Site.place (lineMap source).toArray) hsite
    refine hasync (site.place (lineMap source).toArray) hplaced line ?_
    exact (capture_mem_place hplain hsite line).mpr ⟨hclause, stmt, hstmt, hdue⟩
  · intro hdue placed hplaced line hmem
    obtain ⟨site, hsite, rfl⟩ := List.mem_map.mp hplaced
    obtain ⟨hclause, stmt, hstmt, hcapture⟩ := (capture_mem_place hplain hsite line).mp hmem
    exact hdue site hsite hclause ⟨stmt, hstmt, line, hcapture⟩

theorem around_async_iff_true :
    ∃ instrumented, instrumentWith "true;\n" ["x"] = .ok instrumented ∧
      AroundAsync instrumented.program := by
  obtain ⟨instrumented, hinstrumented, hasync⟩ := around_async_iff parse_true ["x"]
  refine ⟨instrumented, hinstrumented, hasync.mpr ?_⟩
  intro site hsite _ _ isAsync hmem
  obtain rfl : site = ⟨.top, [.expr (.bool true ⟨1, 1⟩) ⟨1, 1⟩]⟩ := List.mem_singleton.mp hsite
  cases hmem

/-- A plain function on one line that returns a function declared with `async`. -/
def asyncInPlain : String :=
  "function f() \x7b return async () => \x7b f; \x7d; \x7d\n"

set_option maxRecDepth 8192 in
theorem parse_asyncInPlain : parse asyncInPlain = .ok [
    .function (.mk (some "f") [] [.return (some (.function (.mk none []
        [.expr (.variable "f" ⟨1, 37⟩) ⟨1, 37⟩] true true (some (⟨1, 35⟩, ⟨1, 40⟩))) ⟨1, 23⟩))
        ⟨1, 16⟩] false false (some (⟨1, 14⟩, ⟨1, 43⟩))) ⟨1, 1⟩] := by
  have htokens : tokenize asyncInPlain = .ok [⟨.keyword .functionKw, ⟨1, 1⟩⟩, ⟨.name "f", ⟨1, 10⟩⟩,
      ⟨.symbol .leftParen, ⟨1, 11⟩⟩, ⟨.symbol .rightParen, ⟨1, 12⟩⟩, ⟨.symbol .leftBrace, ⟨1, 14⟩⟩,
      ⟨.keyword .returnKw, ⟨1, 16⟩⟩, ⟨.keyword .asyncKw, ⟨1, 23⟩⟩, ⟨.symbol .leftParen, ⟨1, 29⟩⟩,
      ⟨.symbol .rightParen, ⟨1, 30⟩⟩, ⟨.symbol .arrow, ⟨1, 32⟩⟩, ⟨.symbol .leftBrace, ⟨1, 35⟩⟩,
      ⟨.name "f", ⟨1, 37⟩⟩, ⟨.symbol .semicolon, ⟨1, 38⟩⟩, ⟨.symbol .rightBrace, ⟨1, 40⟩⟩,
      ⟨.symbol .semicolon, ⟨1, 41⟩⟩, ⟨.symbol .rightBrace, ⟨1, 43⟩⟩, ⟨.endOfInput, ⟨2, 1⟩⟩] := by
    rfl
  unfold parse
  rw [htokens]
  rfl

/-- In `asyncInPlain` a capture is placed, although a plain function is around it. -/
theorem not_aroundAsync_asyncInPlain :
    ∃ instrumented, instrument asyncInPlain = .ok instrumented ∧
      ¬ AroundAsync instrumented.program := by
  refine ⟨_, instrumentWith_of_parse parse_asyncInPlain _, fun hasync => ?_⟩
  let body : List Stmt := [.expr (.variable "f" ⟨1, 37⟩) ⟨1, 37⟩, .capture 1]
  have hcapture : Stmt.capture 1 ∈ body := by simp [body]
  have hplain := hasync ⟨⟨[true, false], false⟩, body⟩ (List.mem_of_getElem? (i := 2) rfl) 1
    hcapture false (by simp)
  cases hplain

end StepTrace.Capture
