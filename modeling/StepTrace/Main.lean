import StepTrace.Command.Answer

/-!
# The program

Reads the file that the command line names and prints what is asked for.
-/

open StepTrace.Command

/-- Reads a file. -/
def readSource (path : String) : IO (Except ReadFailure String) := do
  try
    return .ok (← IO.FS.readFile path)
  catch
    | .noFileOrDirectory .. => return .error .missing
    | .permissionDenied .. => return .error .denied
    | .inappropriateType _ code _ =>
      return .error (if code = 21 then .isDirectory else .notDirectory)
    | .invalidArgument .. => return .error .nameTooLong
    | .userError _ => return .error .notText
    | _ => return .error .missing

/-- What the program prints. A file is read only once its language is settled. -/
def printedFor (args : List String) : IO Printed := do
  match Options.read args with
  | .error rejection => return rejection.printed
  | .ok options =>
    match options.languageOf with
    | .error failure => return printedResult (.error failure)
    | .ok _ =>
      let source ← readSource options.path
      return printedResult (options.answer fun _ => source)

def main (args : List String) : IO UInt32 := do
  let result ← printedFor args
  (← IO.getStdout).putStr result.out
  (← IO.getStderr).putStr result.err
  return UInt32.ofNat result.exit
