/-! # Options

How the arguments of the command line are read. An option that takes a value is
kept until the next option or demonstration is met; only then is it checked that
it has a value and was not given before. -/

namespace Deduction.CommandLine

/-- What is asked for on the command line. -/
structure Options where
  list : Bool := false
  tree : Bool := false
  json : Option String := none
  output : Option String := none
  demonstration : Option String := none

/-- Why the arguments are not followed. -/
inductive Usage where
  | unknownArgument
  | invalidValue
  | tooManyValues
  | argumentConflict
  | help
  deriving DecidableEq

/-- Asking for help is no failure. -/
def Usage.exitCode : Usage → Nat
  | help => 0
  | _ => 2

/-! ## Arguments -/

inductive Flag where
  | list
  | tree
  deriving DecidableEq

/-- The options that take a value: the file for the proof as a document and the
file for the derivation. -/
inductive Target where
  | json
  | output
  deriving DecidableEq

inductive Argument where
  | flag (flag : Flag)
  | help
  | target (target : Target) (value : Option String)
  | separator
  | plain (text : String)

/-- The name and the value of a long option, which are divided by `=`. -/
def splitValue (text : List Char) : String × Option String :=
  let name := String.ofList (text.takeWhile (· != '='))
  match text.dropWhile (· != '=') with
  | [] => (name, none)
  | _ :: value => (name, some (String.ofList value))

def ofLong (text : List Char) : Except Usage Argument :=
  match splitValue text with
  | ("list", none) => .ok (.flag .list)
  | ("tree", none) => .ok (.flag .tree)
  | ("help", none) => .ok .help
  | ("list", some _) => .error .tooManyValues
  | ("tree", some _) => .error .tooManyValues
  | ("help", some _) => .error .tooManyValues
  | ("json", value) => .ok (.target .json value)
  | _ => .error .unknownArgument

/-- The value of a short option may follow it at once, with or without `=`. -/
def ofShort : List Char → Except Usage Argument
  | 'h' :: _ => .ok .help
  | ['o'] => .ok (.target .output none)
  | 'o' :: '=' :: value => .ok (.target .output (some (String.ofList value)))
  | 'o' :: value => .ok (.target .output (some (String.ofList value)))
  | _ => .error .unknownArgument

def Argument.ofText (text : String) : Except Usage Argument :=
  match text.toList with
  | ['-', '-'] => .ok .separator
  | '-' :: '-' :: long => ofLong long
  | ['-'] => .ok (.plain text)
  | '-' :: short => ofShort short
  | _ => .ok (.plain text)

/-! ## Reading -/

/-- Here `pending` is the option met last, with the value it was given so far. After
the separator, every argument names a demonstration. -/
structure Reading where
  options : Options := {}
  pending : Option (Target × Option String) := none
  separated : Bool := false

def Options.given (options : Options) : Target → Bool
  | .json => options.json.isSome
  | .output => options.output.isSome

def Options.setTarget (options : Options) (value : String) : Target → Options
  | .json => { options with json := some value }
  | .output => { options with output := some value }

namespace Reading

/-- A value is required, at most once, and is not empty. -/
def give (reading : Reading) (target : Target) (value : Option String) : Except Usage Reading :=
  match value with
  | none => .error .invalidValue
  | some value =>
      if reading.options.given target then
        .error .argumentConflict
      else if value = "" then
        .error .invalidValue
      else
        .ok { reading with options := reading.options.setTarget value target }

/-- Check the pending option and enter it. -/
def settle (reading : Reading) : Except Usage Reading :=
  match reading.pending with
  | none => .ok reading
  | some (target, value) => { reading with pending := none }.give target value

def setFlag (reading : Reading) (flag : Flag) : Except Usage Reading :=
  match flag with
  | .list =>
      if reading.options.list then
        .error .argumentConflict
      else
        .ok { reading with options := { reading.options with list := true } }
  | .tree =>
      if reading.options.tree then
        .error .argumentConflict
      else
        .ok { reading with options := { reading.options with tree := true } }

def name (reading : Reading) (demonstration : String) : Except Usage Reading := do
  if reading.options.demonstration.isSome then
    throw .unknownArgument
  else
    let reading ← reading.settle
    return { reading with
      options := { reading.options with demonstration := some demonstration } }

def take (reading : Reading) (argument : Argument) : Except Usage Reading := do
  match argument with
  | .flag flag => (← reading.settle).setFlag flag
  | .help =>
      let _ ← reading.settle
      throw .help
  | .target target none => return { ← reading.settle with pending := some (target, none) }
  | .target target (some value) => (← reading.settle).give target (some value)
  | .separator => return { reading with separated := true }
  | .plain text =>
      match reading.pending with
      | some (target, none) => return { reading with pending := some (target, some text) }
      | _ => reading.name text

def takeAll (reading : Reading) : List String → Except Usage Reading
  | [] => .ok reading
  | text :: texts => do
      let reading ←
        if reading.separated then reading.name text
        else reading.take (← Argument.ofText text)
      reading.takeAll texts

end Reading

def Options.read (arguments : List String) : Except Usage Options := do
  let reading ← Reading.takeAll {} arguments
  return (← reading.settle).options

end Deduction.CommandLine
