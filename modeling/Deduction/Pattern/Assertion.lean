/-! # Assertions

An assertion is judged by the characters before and after a place, which are
absent at the ends of the text. The words spoken of are of ASCII letters, digits
and underscores. -/

namespace Deduction

/-- How a place lies to the words around it. A half looks to one side only. -/
inductive WordPlace where
  | boundary
  | noBoundary
  | first
  | past
  | firstHalf
  | pastHalf
  deriving DecidableEq

inductive Assertion where
  | textStart
  | textEnd
  /-- A line ends at a line feed, or also at a carriage return. -/
  | lineStart (carriageReturns : Bool)
  | lineEnd (carriageReturns : Bool)
  | word (place : WordPlace)
  deriving DecidableEq

namespace Assertion

def isWord : Option Char → Bool
  | some c => c.isAlphanum || c == '_'
  | none => false

def holdsForWords (place : WordPlace) (before after : Bool) : Bool :=
  match place with
  | .boundary => before != after
  | .noBoundary => before == after
  | .first => !before && after
  | .past => before && !after
  | .firstHalf => !before
  | .pastHalf => !after

def holds (assertion : Assertion) (before after : Option Char) : Bool :=
  match assertion with
  | textStart => before.isNone
  | textEnd => after.isNone
  | lineStart false => before.isNone || before == some '\n'
  | lineStart true =>
      before.isNone || before == some '\n' || (before == some '\r' && after != some '\n')
  | lineEnd false => after.isNone || after == some '\n'
  | lineEnd true =>
      after.isNone || after == some '\r' || (after == some '\n' && before != some '\r')
  | word place => holdsForWords place (isWord before) (isWord after)

end Assertion

end Deduction
