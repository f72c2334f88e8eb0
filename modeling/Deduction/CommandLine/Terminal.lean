import Deduction.CommandLine.Program

/-! # A terminal in memory

Collects what a run of the program prints and the files it leaves in a directory
that was empty before. -/

namespace Deduction.CommandLine

structure Terminal where
  output : String := ""
  errors : String := ""
  files : List (String × String) := []

namespace Terminal

/-! ## Paths -/

inductive WriteFault where
  | missing
  | noDevice
  | notDirectory
  | isDirectory
  | noSpace
  | nameTooLong

def WriteFault.reason : WriteFault → String
  | missing => "No such file or directory (os error 2)"
  | noDevice => "No such device or address (os error 6)"
  | notDirectory => "Not a directory (os error 20)"
  | isDirectory => "Is a directory (os error 21)"
  | noSpace => "No space left on device (os error 28)"
  | nameTooLong => "File name too long (os error 36)"

/-- The directories that a path can lead through. The directories of the devices,
of the processes and the other ones lie right below the root. What the program has
open lies in the directory of its process. -/
inductive Place where
  | working
  | root
  | devices
  | processes
  | process
  | opened
  | other

/-- What a path denotes. Files outside of the working directory are not kept. -/
inductive Target where
  | file (name : String)
  | output
  | errors
  | unkept

def nameLimit : Nat := 255

def pathLimit : Nat := 4096

def rootDirectories : List String :=
  ["bin", "boot", "etc", "home", "lib", "media", "mnt", "opt", "root", "run", "sbin", "srv",
    "sys", "tmp", "usr", "var"]

def deviceDirectories : List String := ["mqueue", "pts", "shm"]

/-- The devices, each with what becomes of a text that is written to it. -/
def deviceFiles : List (String × Except WriteFault Target) :=
  [("null", .ok .unkept), ("zero", .ok .unkept), ("random", .ok .unkept),
    ("urandom", .ok .unkept), ("stdout", .ok .output), ("stderr", .ok .errors),
    ("full", .error .noSpace), ("tty", .error .noDevice)]

/-- What the program has open from the start. -/
def openedFiles : List (String × Target) :=
  [("0", .unkept), ("1", .output), ("2", .errors)]

namespace Place

def parent : Place → Place
  | working => other
  | root => root
  | devices => root
  | processes => root
  | process => processes
  | opened => process
  | other => root

/-- The directory of a name in a directory. -/
def subdirectory (files : List (String × String)) (place : Place) (name : String) :
    Except WriteFault Place :=
  match place with
  | working => if files.any (·.1 == name) then .error .notDirectory else .error .missing
  | root =>
      if name = "dev" then .ok devices
      else if name = "proc" then .ok processes
      else if rootDirectories.contains name then .ok other
      else .error .missing
  | devices =>
      if name = "fd" then .ok opened
      else if deviceDirectories.contains name then .ok other
      else if (deviceFiles.lookup name).isSome then .error .notDirectory
      else .error .missing
  | processes => if name = "self" then .ok process else .error .missing
  | process => if name = "fd" then .ok opened else .error .missing
  | opened => if (openedFiles.lookup name).isSome then .error .notDirectory else .error .missing
  | other => .error .missing

def enter (files : List (String × String)) (place : Place) (step : String) :
    Except WriteFault Place :=
  if step = "" ∨ step = "." then .ok place
  else if step = ".." then .ok place.parent
  else if nameLimit < step.utf8ByteSize then .error .nameTooLong
  else place.subdirectory files step

/-- What a name in a directory denotes to a writer, who creates what is missing.
Nothing can be created in the directories of the processes. -/
def target (files : List (String × String)) (place : Place) (step : String) :
    Except WriteFault Target :=
  if step = "" ∨ step = "." ∨ step = ".." then .error .isDirectory
  else if nameLimit < step.utf8ByteSize then .error .nameTooLong
  else
    match place, place.subdirectory files step with
    | working, _ => .ok (.file step)
    | _, .ok _ => .error .isDirectory
    | devices, .error _ => (deviceFiles.lookup step).getD (.ok .unkept)
    | processes, .error fault => .error fault
    | process, .error fault => .error fault
    | opened, .error _ =>
        match openedFiles.lookup step with
        | some target => .ok target
        | none => .error .missing
    | _, .error _ => .ok .unkept

end Place

/-- What the steps of a path denote. Every step but the last must be a
directory, and so must one that only slashes follow. -/
def locate (files : List (String × String)) : Place → List String → Except WriteFault Target
  | _, [] => .error .isDirectory
  | place, [step] => place.target files step
  | place, step :: next :: steps =>
      if (next :: steps).all (· == "") then
        .error .isDirectory
      else
        match place.enter files step with
        | .ok inner => locate files inner (next :: steps)
        | .error fault => .error fault

def resolve (files : List (String × String)) (path : String) : Except WriteFault Target :=
  if path = "" then
    .error .missing
  else if pathLimit ≤ path.utf8ByteSize then
    .error .nameTooLong
  else
    let place := if path.toList.head? = some '/' then Place.root else .working
    locate files place ((Text.split '/' path.toList).map String.ofList)

/-! ## Console -/

/-- Writing replaces what the file held. -/
def write (terminal : Terminal) (path content : String) : Option String × Terminal :=
  match resolve terminal.files path with
  | .error fault => (some fault.reason, terminal)
  | .ok .unkept => (none, terminal)
  | .ok .output => (none, { terminal with output := terminal.output ++ content })
  | .ok .errors => (none, { terminal with errors := terminal.errors ++ content })
  | .ok (.file name) =>
      let others := terminal.files.filter fun file => file.1 != name
      (none, { terminal with files := others ++ [(name, content)] })

def console : Console (StateM Terminal) where
  print text := modify fun terminal => { terminal with output := terminal.output ++ text }
  printError text := modify fun terminal => { terminal with errors := terminal.errors ++ text }
  writeFile path content := modifyGet fun terminal => terminal.write path content

end Terminal

/-- Run the program on the given arguments in an empty directory. -/
def runInMemory (filter : Option String) (arguments : List String) :
    Except Usage (Nat × Terminal) :=
  let (result, terminal) := (execute Terminal.console filter arguments).run {}
  result.map fun code => (code, terminal)

end Deduction.CommandLine
