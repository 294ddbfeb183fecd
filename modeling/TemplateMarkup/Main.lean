import TemplateMarkup.CommandLine.Report

/-!
# The program

Reads the arguments and the files they name, prints the answer and returns the exit code: one for a
problem with the input, two for arguments that make no sense.
-/

namespace TemplateMarkup.CommandLine

/-- The text of a file. -/
def readText (path : String) : IO (Except ReadFailure String) := do
  try
    let bytes ← IO.FS.readBinFile path
    match String.fromUTF8? bytes with
    | some text => return .ok text
    | none => return .error .notText
  catch
    | .noFileOrDirectory .. => return .error .missing
    | .inappropriateType .. => return .error .directory
    | e => return .error (.other (toString e))

/-- The entries that are shown at this verbosity, a line each. -/
def logLines (verbosity : Nat) (log : List LogEntry) : List String :=
  let shown := log.filter fun e =>
    match e.level with
    | .debug => 1 ≤ verbosity
    | .trace => 2 ≤ verbosity
  shown.map fun e =>
    e.level.name ++ " " ++ e.message ++ String.join (e.fields.map fun (k, v) => s!" {k}={v}")

end TemplateMarkup.CommandLine

open TemplateMarkup.CommandLine in
def main (args : List String) : IO UInt32 := do
  match Settings.ofArguments args with
  | .error stop =>
    if stop.exitCode = 0 then IO.print stop.text else IO.eprint stop.text
    return stop.exitCode
  | .ok settings =>
    let answer ← settings.answer readText
    for entry in logLines settings.verbosity answer.log do
      IO.eprintln entry
    match answer.outcome with
    | .ok text =>
      IO.print text
      return 0
    | .error problem =>
      IO.eprint problem.report
      return 1
