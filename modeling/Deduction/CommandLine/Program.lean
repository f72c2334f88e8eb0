import Deduction.CommandLine.LogFilter
import Deduction.CommandLine.Options
import Deduction.Demonstration
import Deduction.Document

/-! # The program

Lists the demonstrations, or runs one and shows what it proved. The program
speaks to its surroundings through a console, so that it runs alike on a real
terminal and on one kept in memory. -/

namespace Deduction.CommandLine

/-- Writing a file answers with the reason for which it failed, if it did. -/
structure Console (m : Type → Type) where
  print : String → m Unit
  printError : String → m Unit
  writeFile : (path content : String) → m (Option String)

/-- Why a demonstration did not end in a proof on display. -/
inductive Failure where
  | unknownDemonstration (name : String)
  | rejected (fault : Fault)
  | system (reason : String)

namespace Failure

def status : Failure → String
  | unknownDemonstration _ => "UnknownDemo"
  | rejected _ => "Rejected"
  | system _ => "OSError"

def message : Failure → String
  | unknownDemonstration name => "unknown demonstration " ++ name ++ ", see --list"
  | rejected fault => fault.message
  | system reason => reason

end Failure

/-! ## Texts -/

/-- Fill up with blanks on the right. -/
def padded (width : Nat) (text : String) : String :=
  text ++ String.ofList (List.replicate (width - text.length) ' ')

def listing : String :=
  String.join (Demonstration.catalogue.map fun demonstration =>
    padded 12 demonstration.name ++ " " ++ demonstration.description ++ "\n")

def logLine (event : Event) : String :=
  "[" ++ padded 5 event.level.name ++ " " ++ event.source ++ "] " ++ event.message ++ "\n"

/-- The lines shown for the events that the filter admits. -/
def logText (filter : LogFilter) (events : List Event) : String :=
  String.join ((events.filter filter.admits).map logLine)

def defaultFilter : String := "warn"

def defaultDemonstration : String := "syllogism"

/-! ## Running -/

section

variable {m : Type → Type} [Monad m] (console : Console m)

def store (path content : String) : ExceptT Failure m Unit := do
  match ← console.writeFile path content with
  | some reason => throw (.system reason)
  | none => return

/-- The document is written before success is announced, the derivation after. -/
def present (options : Options) (proof : Proof) : ExceptT Failure m Unit := do
  match options.json with
  | some path => store console path (proof.document.written "" ++ "\n")
  | none => pure ()
  console.print "status: proved\n"
  let shown := if options.tree then proof.tree else proof.conclusion.text ++ "\n"
  match options.output with
  | some path => store console path shown
  | none => console.print shown

def demonstrate (filter : LogFilter) (options : Options) : ExceptT Failure m Unit := do
  let name := options.demonstration.getD defaultDemonstration
  match Demonstration.find name with
  | none => throw (.unknownDemonstration name)
  | some demonstration =>
      let (result, final) := demonstration.run
      console.printError
        (logText filter (.demonstrationStarted demonstration.name :: final.journal))
      match result with
      | .error fault => throw (.rejected fault)
      | .ok proof =>
          console.printError (logText filter [.derivationFinished proof.size])
          present console options proof

/-- Run the program and return its exit code. -/
def run (filter : LogFilter) (options : Options) : m Nat := do
  if options.list then
    console.print listing
    return 0
  else
    match ← (demonstrate console filter options).run with
    | .ok () => return 0
    | .error failure =>
        console.print ("status: " ++ failure.status ++ "\n")
        console.printError (failure.message ++ "\n")
        return 1

/-- Run the program as it is called. Complaints about the filter come first. -/
def execute (filter : Option String) (arguments : List String) : m (Except Usage Nat) := do
  let (filter, complaints) := LogFilter.read (filter.getD defaultFilter)
  console.printError (String.join (complaints.map Complaint.line))
  match Options.read arguments with
  | .error problem => return .error problem
  | .ok options => return .ok (← run console filter options)

end

end Deduction.CommandLine
