import Deduction.Pattern.CharacterSet
import Deduction.Pattern.Encoding
import Deduction.Pattern.Extent

/-! # Sets in automata

An automaton reads the bytes of a character one by one. Forward, the byte
sequences of a set share what they end with; backward, they share what they begin
with. -/

namespace Deduction.Pattern

/-- The byte sequences that go on from a state, grouped by their first range. -/
def arms : List (List ByteRange) → List (ByteRange × List (List ByteRange))
  | [] => []
  | [] :: sequences => arms sequences
  | (range :: rest) :: sequences =>
      match arms sequences with
      | [] => [(range, [rest])]
      | (range', rests) :: others =>
          if range = range' then (range, rest :: rests) :: others
          else (range, [rest]) :: (range', rests) :: others

def longestEncoding : Nat := 4

def forwardSlots : UInt64 := 10000

def backwardSlots : UInt64 := 1000

/-- The state from which byte sequences lead to the goal. It stands for its
transitions, the states that they lead to being added before it. -/
def stateBefore (goal : Nat) : Nat → List (List ByteRange) → Sharing → Nat × Sharing
  | 0, _, sharing => (goal, sharing)
  | depth + 1, sequences, sharing =>
      if sequences.all List.isEmpty then
        (goal, sharing)
      else
        let groups := arms sequences
        let (key, sharing) := groups.foldl
          (fun (key, sharing) ((low, high), rests) =>
            let (next, sharing) := stateBefore goal depth rests sharing
            (next :: high :: low :: key, sharing))
          ([], sharing)
        sharing.stateFor key.reverse groups.length

/-- The state from which a byte sequence is read backward. Each state stands for
its range and the state that it leads to. -/
def stateAfter (goal : Nat) (sequence : List ByteRange) (sharing : Sharing) : Sharing :=
  (sequence.foldl
    (fun (next, sharing) (low, high) => sharing.stateFor [next, low, high] 0)
    (goal, sharing)).2

def encodingsOfSet (set : CharacterSet) : List (List ByteRange) :=
  set.ranges.flatMap fun range => encodings range.1 range.2

/-- Add a set. The bytes of ASCII characters are read by a single state. -/
def laySet (backward : Bool) (set : CharacterSet) (extent : Extent) : Extent :=
  if set.isAscii then
    (extent.addStates 2).addTransitions set.ranges.length
  else
    let sequences := encodingsOfSet set
    if backward then
      let goal := extent.states + 1
      let start : Sharing := { extent := extent.addStates 2, slotCount := backwardSlots }
      let sharing := sequences.foldl (fun sharing sequence => stateAfter goal sequence sharing)
        start
      sharing.extent.addLinks sequences.length
    else
      let goal := extent.states
      let start : Sharing := { extent := extent.addState, slotCount := forwardSlots }
      (stateBefore goal longestEncoding sequences start).2.extent

end Deduction.Pattern
