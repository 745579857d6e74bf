import StepTrace.Lowering.Host
import StepTrace.Structure
import StepTrace.Trace.Report

/-!
# Editing sessions

A session holds the text that is being edited and the language it is said to be in, and the
report of the latest run as long as neither has changed since. The structure of the text is
known at every moment, whatever the language; it is found out anew with every change.

* `Session.refresh`: what every change of the text or of the language ends with.
* `Session.visualize`: runs the text; a text that is no program is reported, a language that
  is not understood is refused.
-/

namespace StepTrace

/-- Why a text cannot be run. -/
inductive Refusal where
  | language (name : String)
  | form (error : Syntax.SyntaxError)

/-- What is said about a text that cannot be run. -/
def Refusal.message : Refusal → String
  | .language name => Language.unsupportedMessage name
  | .form error => Capture.faultMessage error

/-- What a service that runs the text as it is needs to know. -/
structure ExecutionRequest where
  languageId : String
  version : String
  source : String
deriving DecidableEq, Repr

/-- An editing session. -/
structure Session where
  source : String
  languageId : String
  /-- The structure of the text. -/
  structureReport : Structure.Report
  /-- The report of the latest run, if it still belongs to the text and the language. -/
  lastRun : Option Report

namespace Session

/-- A session that has run nothing yet. -/
def start (source languageId : String) : Session :=
  ⟨source, languageId, Structure.analyze source, none⟩

/-- The session with the structure of its text and no run. -/
def refresh (session : Session) : Session :=
  { session with structureReport := Structure.analyze session.source, lastRun := none }

/-- The session with another text. -/
def setSource (session : Session) (source : String) : Session :=
  { session with source }.refresh

/-- The session with another language. -/
def setLanguage (session : Session) (languageId : String) : Session :=
  { session with languageId }.refresh

/-- The language of the text. -/
def language (session : Session) : Except Refusal Language :=
  (Language.ofName session.languageId).mapError .language

/-- The text in the host language. -/
def host (session : Session) : Except Refusal Lowering.HostProgram :=
  session.language.map (Lowering.toHost session.source)

/-- The program with its captures. -/
def instrumented (session : Session) : Except Refusal Capture.Instrumented := do
  let host ← session.host
  (Capture.instrument host.source).mapError .form

/-- The report of a run, for at most so many steps if there is a limit. -/
def run (session : Session) (limit : Option Nat) : Except Refusal Report :=
  match session.instrumented with
  | .ok program => .ok (program.report limit)
  | .error (.form error) => .ok (.failed (Capture.faultMessage error))
  | .error (.language name) => .error (.language name)

/-- Runs the text; the session keeps the report in place of the one before. -/
def visualize (session : Session) (limit : Option Nat) : Except Refusal Report × Session :=
  let session := { session with lastRun := none }
  match session.run limit with
  | .ok report => (.ok report, { session with lastRun := some report })
  | .error refusal => (.error refusal, session)

/-- The request to run the text as it is. -/
def executionRequest (session : Session) : Except Refusal ExecutionRequest :=
  session.language.map fun language => ⟨language.id, language.version, session.source⟩

end Session

end StepTrace
