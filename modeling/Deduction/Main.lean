import Deduction.CommandLine.Program

/-! # Entry point

Runs the program on the real terminal. The variable `LOG` of the environment
holds the filter of the events to show. -/

namespace Deduction.CommandLine

/-- The wording of the failures that writing a file commonly meets. -/
def systemReason (failure : IO.Error) : String :=
  let worded := fun (code : UInt32) (details : String) =>
    details ++ " (os error " ++ toString code ++ ")"
  match failure with
  | .noFileOrDirectory _ code details => worded code details
  | .inappropriateType _ code details => worded code details
  | .invalidArgument _ code details => worded code details
  | .permissionDenied _ code details => worded code details
  | .resourceExhausted _ code details => worded code details
  | .noSuchThing _ code details => worded code details
  | failure => toString failure

def terminal : Console IO where
  print := IO.print
  printError := IO.eprint
  writeFile path content := do
    match ← (IO.FS.writeFile path content).toBaseIO with
    | .ok () => return none
    | .error failure => return some (systemReason failure)

def usage : String :=
  "usage: [--list] [--tree] [--json FILE] [-o FILE] [DEMO]\n"

end Deduction.CommandLine

open Deduction.CommandLine

def main (arguments : List String) : IO UInt32 := do
  match ← execute terminal (← IO.getEnv "LOG") arguments with
  | .ok code => return code.toUInt32
  | .error problem =>
      if problem = .help then IO.print usage else IO.eprint usage
      return problem.exitCode.toUInt32
