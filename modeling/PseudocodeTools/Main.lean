import PseudocodeTools.CommandLine.Report
/-!
# Command line program

Reads the arguments and the file that they name, and prints the report on it.
-/

namespace PseudocodeTools

/-- The text of a file, or why it cannot be read. -/
def readFile (name : Text) : IO (Except FileFault Text) := do
  try
    let bytes ← IO.FS.readBinFile (String.ofList name)
    return textOfBytes bytes
  catch fault =>
    match fault with
    | .noFileOrDirectory .. => return .error .notFound
    | .permissionDenied .. => return .error .notPermitted
    | .inappropriateType .. => return .error .isDirectory
    | other => return .error (.other (toString other).toList)

/-- The outcome of what a list of arguments asks for. -/
def outcomeOf (arguments : List Text) : IO Outcome := do
  match Invocation.ofArguments arguments with
  | .error fault => return usageOutcome fault
  | .ok .version => return versionOutcome
  | .ok .help => return helpOutcome
  | .ok (.run command) => return command.outcome (← readFile command.file)

end PseudocodeTools

def main (arguments : List String) : IO UInt32 := do
  let outcome ← PseudocodeTools.outcomeOf (arguments.map String.toList)
  (← IO.getStdout).putStr (String.ofList outcome.output)
  (← IO.getStderr).putStr (String.ofList outcome.errors)
  return outcome.code
