import StepTrace.Command.FileTree
import StepTrace.Command.Options
import StepTrace.Session
import StepTrace.Text.Quoted

/-!
# Carrying out a command

The language is settled before the file is read. What is produced goes to the output as it
is; a failure goes to the diagnostics and its parts are named there.

* `Options.answer`: what a command prints, given how files are read.
-/

namespace StepTrace.Command

/-- Why a command fails. -/
inductive Failure where
  | language (name : String)
  | read (path : String) (reason : ReadFailure)
  | form (error : Syntax.SyntaxError)
  | noTerminal

/-- A refusal of the operating system: its number, its kind and its wording. -/
def systemRefusal (code : Nat) (kind message : String) : String :=
  "Os \x7b code: " ++ toString code ++ ", kind: " ++ kind ++ ", message: " ++
    Text.quoted message ++ " \x7d"

/-- The diagnostics of a file that cannot be read. -/
def ReadFailure.describe : ReadFailure → String
  | .missing => systemRefusal 2 "NotFound" "No such file or directory"
  | .notDirectory => systemRefusal 20 "NotADirectory" "Not a directory"
  | .isDirectory => systemRefusal 21 "IsADirectory" "Is a directory"
  | .denied => systemRefusal 13 "PermissionDenied" "Permission denied"
  | .nameTooLong => systemRefusal 36 "InvalidFilename" "File name too long"
  | .notText =>
    "Error \x7b kind: InvalidData, message: " ++
      Text.quoted "stream did not contain valid UTF-8" ++ " \x7d"

/-- The diagnostics of a failure. -/
def Failure.describe : Failure → String
  | .language name =>
    "UnsupportedLanguage(UnsupportedLanguage(" ++ Text.quoted name ++ "))"
  | .read path reason =>
    "Read \x7b path: " ++ Text.quoted path ++ ", source: " ++ reason.describe ++ " \x7d"
  | .form error =>
    "Syntax(ParseError \x7b message: " ++ Text.quoted error.fault.message ++
      ", location: SourceLocation \x7b line: " ++ toString error.loc.line ++ ", column: " ++
      toString error.loc.column ++ " \x7d \x7d)"
  | .noTerminal => systemRefusal 6 "Uncategorized" "No such device or address"

/-- A refusal as a failure. -/
def Failure.ofRefusal : Refusal → Failure
  | .language name => .language name
  | .form error => .form error

/-- The language that the command gives, or that the name of the file tells. -/
def Options.languageOf (options : Options) : Except Failure Language :=
  ((options.language.map Language.ofName).getD (Language.ofPath options.path)).mapError
    .language

/-- What is produced from the text of the file. -/
def Options.produce (options : Options) (language : Language) (source : String) :
    Except Failure String :=
  let session := Session.start source language.id
  match options.product with
  | .report => .ok (session.structureReport.json.pretty ++ "\n")
  | .host => (session.host.map fun host => host.source).mapError .ofRefusal
  | .instrumented => (session.instrumented.map fun program => program.render).mapError .ofRefusal
  | .trace =>
    ((session.run options.limit).map fun report => report.json.pretty ++ "\n").mapError .ofRefusal
  | .viewer => .error .noTerminal

/-- What the command prints, given how files are read. -/
def Options.answer (options : Options) (read : String → Except ReadFailure String) :
    Except Failure String := do
  let language ← options.languageOf
  let source ← (read options.path).mapError (.read options.path)
  options.produce language source

/-- The explanation of the command line. -/
def helpText (long : Bool) : String :=
  let head := "Step through a small program and watch its variables change\n\n" ++
    "Usage: stepscope [OPTIONS] <PATH>\n\nArguments:\n"
  let gap := "\n          "
  if long then
    let products := Product.all.map fun product =>
      let word := product.word ++ ":"
      gap ++ "- " ++ word ++ String.ofList (List.replicate (14 - word.length) ' ') ++ product.help
    head ++ "  <PATH>" ++ gap ++ "Source file to visualize\n\nOptions:\n" ++
      "      --lang <LANGUAGE>" ++ gap ++
      "Surface language (js, java, cpp). Inferred from the extension if omitted\n\n" ++
      "      --emit <EMIT>" ++ gap ++ "What to produce\n" ++
      gap ++ "Possible values:" ++ String.join products ++ "\n" ++
      gap ++ "[default: tui]\n\n" ++
      "      --max-steps <MAX_STEPS>" ++ gap ++
      "Stop the simulation after this many steps (0 disables the cap)\n" ++
      gap ++ "[default: 10000]\n\n" ++
      "  -h, --help" ++ gap ++ "Print help (see a summary with '-h')\n"
  else
    head ++ "  <PATH>  Source file to visualize\n\nOptions:\n" ++
      "      --lang <LANGUAGE>        Surface language (js, java, cpp). " ++
      "Inferred from the extension if omitted\n" ++
      "      --emit <EMIT>            What to produce [default: tui] [possible values: " ++
      ", ".intercalate (Product.all.map Product.word) ++ "]\n" ++
      "      --max-steps <MAX_STEPS>  Stop the simulation after this many steps " ++
      "(0 disables the cap) [default: 10000]\n" ++
      "  -h, --help                   Print help (see more with '--help')\n"

/-- What a program leaves behind: its exit code and what it printed. -/
structure Printed where
  exit : Nat
  out : String
  err : String

/-- What is printed when arguments make up no command. -/
def Rejection.printed : Rejection → Printed
  | .help long => ⟨0, helpText long, ""⟩
  | .usage => ⟨2, "", "error: the arguments make up no command\n"⟩

/-- What is printed for the result of a command. -/
def printedResult : Except Failure String → Printed
  | .ok out => ⟨0, out, ""⟩
  | .error failure => ⟨1, "", "Error: " ++ failure.describe ++ "\n"⟩

/-- What the program prints for its arguments, given how files are read. -/
def printed (args : List String) (read : String → Except ReadFailure String) : Printed :=
  match Options.read args with
  | .error rejection => rejection.printed
  | .ok options => printedResult (options.answer read)

end StepTrace.Command
