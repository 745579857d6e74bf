import StepTrace.Session
import Mathlib.Data.List.Induction

/-!
# What a session shows is current

The user changes the text, changes the language and asks for runs, in any order. After every
such sequence of operations the structure and the last run of the session are those of its
present text and language (`Session.Current`), and what a run answers does not depend on what
the session has done before (`run_start`). Every single operation leaves behind a session
that is current (`Current.perform`); `current_results` is the statement about all sequences.
-/

namespace StepTrace.Session

/-! ## Operations -/

/-- What a user does with a session. -/
inductive Operation where
  | setSource (source : String)
  | setLanguage (languageId : String)
  | visualize (limit : Option Nat)

/-- The text that the operation sets. -/
def Operation.source? : Operation → Option String
  | .setSource source => some source
  | _ => none

/-- The language that the operation sets. -/
def Operation.languageId? : Operation → Option String
  | .setLanguage languageId => some languageId
  | _ => none

/-- The session after the operation. -/
def perform (session : Session) : Operation → Session
  | .setSource source => session.setSource source
  | .setLanguage languageId => session.setLanguage languageId
  | .visualize limit => (session.visualize limit).2

/-- The session after the operations, one after another. -/
def after (session : Session) (operations : List Operation) : Session :=
  operations.foldl perform session

variable {session : Session} {limit : Option Nat} {operation : Operation}

@[simp]
theorem after_nil : session.after [] = session := rfl

@[simp]
theorem after_concat (operations : List Operation) :
    session.after (operations ++ [operation]) = (session.after operations).perform operation := by
  simp [after]

/-! ## Runs -/

/-- The language is one that is understood. -/
def Supported (languageId : String) : Prop :=
  ∃ language, Language.ofName languageId = .ok language

/-- What a run answers depends on the text and the language alone. -/
theorem run_congr (session session' : Session) (hsource : session.source = session'.source)
    (hlanguage : session.languageId = session'.languageId) (limit : Option Nat) :
    session.run limit = session'.run limit := by
  have hinstrumented : session.instrumented = session'.instrumented := by
    rw [instrumented, instrumented, host, host, language, language, hsource, hlanguage]
  unfold run
  rw [hinstrumented]

theorem run_start (session : Session) (limit : Option Nat) :
    (start session.source session.languageId).run limit = session.run limit :=
  run_congr (start session.source session.languageId) session rfl rfl limit

theorem visualize_of_ok {report : Report} (h : session.run limit = .ok report) :
    session.visualize limit = (.ok report, { session with lastRun := some report }) := by
  have hrun : Session.run { session with lastRun := none } limit = .ok report :=
    (run_congr { session with lastRun := none } session rfl rfl limit).trans h
  unfold visualize
  dsimp only
  rw [hrun]

theorem visualize_of_error {refusal : Refusal} (h : session.run limit = .error refusal) :
    session.visualize limit = (.error refusal, { session with lastRun := none }) := by
  have hrun : Session.run { session with lastRun := none } limit = .error refusal :=
    (run_congr { session with lastRun := none } session rfl rfl limit).trans h
  unfold visualize
  dsimp only
  rw [hrun]

theorem run_of_error {name : String} (h : Language.ofName session.languageId = .error name) :
    session.run limit = .error (.language name) := by
  have hinstrumented : session.instrumented = .error (.language name) := by
    rw [instrumented, host, language, h]
    rfl
  unfold run
  rw [hinstrumented]

/-- A text in a language that is understood has a report, also if it is no program. -/
theorem exists_run_of_ok {language : Language}
    (h : Language.ofName session.languageId = .ok language) :
    ∃ report, session.run limit = .ok report := by
  have hinstrumented : session.instrumented =
      (Capture.instrument (Lowering.toHost session.source language).source).mapError .form := by
    rw [instrumented, host, Session.language, h]
    rfl
  unfold run
  rw [hinstrumented]
  cases Capture.instrument (Lowering.toHost session.source language).source with
  | error error => exact ⟨_, rfl⟩
  | ok program => exact ⟨_, rfl⟩

theorem exists_run_eq_ok_iff :
    (∃ report, session.run limit = .ok report) ↔ Supported session.languageId := by
  constructor
  · rintro ⟨report, hrun⟩
    cases h : Language.ofName session.languageId with
    | error name =>
        rw [run_of_error h] at hrun
        cases hrun
    | ok language => exact ⟨language, h⟩
  · rintro ⟨language, h⟩
    exact exists_run_of_ok h

/-! ## Single operations -/

theorem source_perform :
    (session.perform operation).source = operation.source?.getD session.source := by
  cases operation with
  | visualize limit =>
      cases hrun : session.run limit with
      | ok report => simp [perform, visualize_of_ok hrun, Operation.source?]
      | error refusal => simp [perform, visualize_of_error hrun, Operation.source?]
  | _ => rfl

theorem languageId_perform :
    (session.perform operation).languageId = operation.languageId?.getD session.languageId := by
  cases operation with
  | visualize limit =>
      cases hrun : session.run limit with
      | ok report => simp [perform, visualize_of_ok hrun, Operation.languageId?]
      | error refusal => simp [perform, visualize_of_error hrun, Operation.languageId?]
  | _ => rfl

/-- What the session shows after the latest operation belongs to its present text and
language. -/
structure Current (session : Session) (latest : Option Operation) : Prop where
  structureReport : session.structureReport = Structure.analyze session.source
  /-- The request carries the text as it was written. -/
  request : ∀ language, Language.ofName session.languageId = .ok language →
    session.executionRequest = .ok ⟨language.id, language.version, session.source⟩
  noRequest : (∃ refusal, session.executionRequest = .error refusal) ↔
    ¬ Supported session.languageId
  /-- There is a last run exactly if the latest operation has asked for one and was answered,
  and the last run is what a new session answers. -/
  lastRun : ∀ report, session.lastRun = some report ↔
    ∃ limit, latest = some (.visualize limit) ∧
      ((start session.source session.languageId).visualize limit).1 = .ok report
  /-- A run that is rejected takes only the last run away. -/
  rejected : ∀ limit, ¬ Supported session.languageId →
    ∃ refusal, session.visualize limit = (.error refusal, { session with lastRun := none })
  answered : ∀ limit, Supported session.languageId →
    ∃ report, (session.visualize limit).1 = .ok report

theorem visualize_fst (session : Session) (limit : Option Nat) :
    (session.visualize limit).1 = session.run limit := by
  cases hrun : session.run limit with
  | ok report => rw [visualize_of_ok hrun]
  | error refusal => rw [visualize_of_error hrun]

/-- A session with the structure of its text is current if its last run is. -/
theorem current_of {latest : Option Operation}
    (hstructure : session.structureReport = Structure.analyze session.source)
    (hlast : ∀ report, session.lastRun = some report ↔
      ∃ limit, latest = some (.visualize limit) ∧ session.run limit = .ok report) :
    Current session latest where
  structureReport := hstructure
  request language h := by
    rw [executionRequest, Session.language, h]
    rfl
  noRequest := by
    unfold Supported executionRequest Session.language
    cases Language.ofName session.languageId <;> simp [Except.mapError, Except.map]
  lastRun report := by simpa only [visualize_fst, run_start] using hlast report
  rejected limit h := by
    cases hrun : session.run limit with
    | ok report => exact absurd (exists_run_eq_ok_iff.mp ⟨report, hrun⟩) h
    | error refusal => exact ⟨refusal, visualize_of_error hrun⟩
  answered limit h := by
    rw [visualize_fst]
    exact exists_run_eq_ok_iff.mpr h

theorem current_start (source languageId : String) : Current (start source languageId) none :=
  current_of rfl (by simp [start])

/-- Every operation leaves behind a session that is current. -/
theorem Current.perform {latest : Option Operation} (h : Current session latest)
    (operation : Operation) : Current (session.perform operation) (some operation) := by
  cases operation with
  | setSource source => exact current_of rfl (by simp [Session.perform, setSource, refresh])
  | setLanguage languageId =>
      exact current_of rfl (by simp [Session.perform, setLanguage, refresh])
  | visualize limit =>
      have hsame (last : Option Report) (limit : Option Nat) :
          Session.run { session with lastRun := last } limit = session.run limit :=
        run_congr { session with lastRun := last } session rfl rfl limit
      cases hrun : session.run limit with
      | ok report =>
          rw [Session.perform, visualize_of_ok hrun]
          exact current_of h.structureReport (by simp [hsame, hrun])
      | error refusal =>
          rw [Session.perform, visualize_of_error hrun]
          exact current_of h.structureReport (by simp [hsame, hrun])

/-! ## Sequences of operations -/

theorem current_after (source languageId : String) (operations : List Operation) :
    Current ((start source languageId).after operations) operations.getLast? := by
  induction operations using List.reverseRecOn with
  | nil => exact current_start source languageId
  | append_singleton operations operation ih =>
      rw [after_concat, List.getLast?_concat]
      exact ih.perform operation

/-- The last of the values that operations set. -/
theorem getLastD_filterMap_concat {α : Type} (value? : Operation → Option α)
    (operations : List Operation) (first : α) :
    ((operations ++ [operation]).filterMap value?).getLastD first =
      (value? operation).getD ((operations.filterMap value?).getLastD first) := by
  rw [List.filterMap_append]
  cases h : value? operation with
  | none => simp [h]
  | some value => simp [h]

theorem source_after (operations : List Operation) :
    (session.after operations).source =
      (operations.filterMap Operation.source?).getLastD session.source := by
  induction operations using List.reverseRecOn with
  | nil => rfl
  | append_singleton operations operation ih =>
      rw [after_concat, source_perform, ih, getLastD_filterMap_concat]

theorem languageId_after (operations : List Operation) :
    (session.after operations).languageId =
      (operations.filterMap Operation.languageId?).getLastD session.languageId := by
  induction operations using List.reverseRecOn with
  | nil => rfl
  | append_singleton operations operation ih =>
      rw [after_concat, languageId_perform, ih, getLastD_filterMap_concat]

/-- After any operations a session has the text and the language that were set last, and what
it shows is current. If a run was the latest operation, its answer is the last run. -/
theorem current_results (source languageId : String) (operations : List Operation) :
    ((start source languageId).after operations).source =
        (operations.filterMap Operation.source?).getLastD source ∧
      ((start source languageId).after operations).languageId =
        (operations.filterMap Operation.languageId?).getLastD languageId ∧
      Current ((start source languageId).after operations) operations.getLast? ∧
      ∀ limit, ((start source languageId).after (operations ++ [.visualize limit])).lastRun =
        (((start source languageId).after operations).visualize limit).1.toOption := by
  refine ⟨source_after operations, languageId_after operations,
    current_after source languageId operations, fun limit => ?_⟩
  rw [after_concat, perform, visualize_fst]
  cases hrun : ((start source languageId).after operations).run limit with
  | ok report => rw [visualize_of_ok hrun]; rfl
  | error refusal => rw [visualize_of_error hrun]; rfl

end StepTrace.Session
