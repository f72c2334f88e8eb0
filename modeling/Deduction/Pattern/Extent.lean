import Std.Data.HashMap

/-! # Extents of automata

What has been built of an automaton: its states, the links out of states that
branch, and the transitions by bytes out of states that have several. The memory
for them is limited. -/

namespace Deduction.Pattern

/-- States are numbered from zero on in the order in which they are added. -/
structure Extent where
  states : Nat := 0
  links : Nat := 0
  transitions : Nat := 0

def stateWeight : Nat := 32

def linkWeight : Nat := 4

def transitionWeight : Nat := 8

def weightLimit : Nat := 10485760

namespace Extent

def weight (extent : Extent) : Nat :=
  stateWeight * extent.states + linkWeight * extent.links + transitionWeight * extent.transitions

def isTooHeavy (extent : Extent) : Bool :=
  weightLimit < extent.weight

def addStates (extent : Extent) (count : Nat) : Extent :=
  { extent with states := extent.states + count }

def addState (extent : Extent) : Extent :=
  extent.addStates 1

def addLinks (extent : Extent) (count : Nat) : Extent :=
  { extent with links := extent.links + count }

def addTransitions (extent : Extent) (count : Nat) : Extent :=
  { extent with transitions := extent.transitions + count }

end Extent

/-! ## Sharing states

A state may be used again for what it stands for, as long as it is remembered.
There are only so many slots, and a state is forgotten when another one takes its
slot. -/

/-- The numbers mixed into one. -/
def digest (numbers : List Nat) : UInt64 :=
  numbers.foldl (fun mixed number => (mixed ^^^ number.toUInt64) * 1099511628211)
    14695981039346656037

/-- An extent, and which states are remembered in which slots. -/
structure Sharing where
  extent : Extent
  slotCount : UInt64
  slots : Std.HashMap UInt64 (List Nat × Nat) := {}

namespace Sharing

/-- The state for a key, which is added with so many transitions unless it is
remembered. -/
def stateFor (sharing : Sharing) (key : List Nat) (transitions : Nat) : Nat × Sharing :=
  let slot := digest key % sharing.slotCount
  let added :=
    let state := sharing.extent.states
    (state, { sharing with
      extent := sharing.extent.addState.addTransitions transitions
      slots := sharing.slots.insert slot (key, state) })
  match sharing.slots[slot]? with
  | some (key', state) => if key' = key then (state, sharing) else added
  | none => added

end Sharing

end Deduction.Pattern
