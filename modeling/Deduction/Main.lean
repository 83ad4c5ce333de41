/-
The command line program.
-/
import Deduction.CommandLine.Help
import Deduction.CommandLine.Run

open Deduction in
def main (words : List String) : IO UInt32 := do
  let program := "deduction"
  let _ := CallStack.usual
  let outcome := CommandLine.answer words
  match outcome with
  | .help => IO.print (Text.page (CommandLine.helpLines program))
  | .refused complaint => IO.eprintln (program ++ ": error: " ++ complaint)
  | .ran lines fault =>
    IO.print (Text.page lines)
    if let some fault := fault then IO.eprintln fault.message
  return outcome.exitCode
