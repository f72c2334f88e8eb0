import Deduction.Fault

/-! # Events

What the kernel and its demonstrations report about their work. Events are kept
as values and worded only when they are shown. -/

namespace Deduction

/-! ## Severity -/

inductive Level where
  | error
  | warn
  | info
  | debug
  | trace
  deriving DecidableEq

namespace Level

def rank : Level → Nat
  | error => 1
  | warn => 2
  | info => 3
  | debug => 4
  | trace => 5

def name : Level → String
  | error => "ERROR"
  | warn => "WARN"
  | info => "INFO"
  | debug => "DEBUG"
  | trace => "TRACE"

/-- The least severe level that is still shown, or nothing to show no event. -/
abbrev Threshold := Option Level

def Threshold.admits (threshold : Threshold) (level : Level) : Bool :=
  match threshold with
  | some least => level.rank ≤ least.rank
  | none => false

/-- A threshold is named by its level in any case of letters; any other name
shows nothing. -/
def Threshold.ofName (name : String) : Threshold :=
  [error, warn, info, debug, trace].find? fun level => level.name == name.toUpper

/-- The threshold that a name stands for. The name `OFF` shows nothing. -/
def Threshold.ofName? (name : String) : Option Threshold :=
  if name.toUpper = "OFF" then some none else (Threshold.ofName name).map some

end Level

/-! ## Events -/

inductive Event where
  | inserted (element : Object) (set : Collection)
  | imageCreated (image : Object) (range : Collection)
  | certified (rule : Rule) (conclusion : Proposition)
  | bound (schema : Schema) (parameter : String) (value : Argument)
  | reduced (schema : Schema) (statement : Proposition)
  | demonstrationStarted (name : String)
  | derivationFinished (steps : Nat)

namespace Event

def level : Event → Level
  | inserted _ _ => .trace
  | imageCreated _ _ => .trace
  | certified _ _ => .debug
  | bound _ _ _ => .trace
  | reduced _ _ => .debug
  | demonstrationStarted _ => .info
  | derivationFinished _ => .info

/-- The part of the program that an event is attributed to. -/
def source : Event → String
  | inserted _ _ => "natded::set"
  | imageCreated _ _ => "natded::set"
  | certified _ _ => "natded::proof"
  | bound _ _ _ => "natded::predicate"
  | reduced _ _ => "natded::predicate"
  | demonstrationStarted _ => "natproof"
  | derivationFinished _ => "natproof"

def message : Event → String
  | inserted element set => "insert " ++ element.text ++ " into " ++ set.name
  | imageCreated image range => "new image " ++ image.text ++ " in " ++ range.name
  | certified rule conclusion => rule.name ++ ": " ++ conclusion.text
  | bound schema parameter value =>
      schema.text ++ ": bind " ++ parameter ++ " to " ++ value.text
  | reduced schema statement => "reduce " ++ schema.text ++ " to " ++ statement.text
  | demonstrationStarted name => "running demonstration " ++ name
  | derivationFinished steps => "derivation has " ++ toString steps ++ " steps"

def line (event : Event) : String :=
  event.level.name ++ " " ++ event.source ++ ": " ++ event.message

/-- The lines of the events that the threshold admits. -/
def lines (threshold : Level.Threshold) (events : List Event) : List String :=
  (events.filter fun event => threshold.admits event.level).map line

end Event

end Deduction
