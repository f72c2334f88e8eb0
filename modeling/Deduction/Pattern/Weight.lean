import Deduction.Pattern
import Deduction.Pattern.SetLayout
import Deduction.Pattern.WordLayout

/-! # The weight of patterns

A pattern is meant to be run by an automaton over bytes, forward and backward. It
is laid out state by state. What is already too heavy is not laid out further. -/

namespace Deduction.Pattern

/-! ## Layouts

A part of an automaton ends in a state. If that state branches, going on from it
takes one more link. -/

structure Laid where
  extent : Extent
  endBranches : Bool := false

/-- The extent with the way on from the end. -/
def Laid.onward (laid : Laid) : Extent :=
  if laid.endBranches then laid.extent.addLinks 1 else laid.extent

/-- How a part is added to what has been built. -/
abbrev Layout := Extent → Laid

namespace Layout

def single : Layout := fun extent =>
  { extent := extent.addState }

def inTurn : List Layout → Layout
  | [], extent => single extent
  | [layout], extent => layout extent
  | layout :: layouts, extent => inTurn layouts (layout extent).onward

/-- So many copies in a row. -/
def copies (layout : Layout) : Nat → Layout
  | 0, extent => single extent
  | 1, extent => layout extent
  | count + 2, extent =>
      if extent.isTooHeavy then { extent }
      else copies layout (count + 1) (layout extent).onward

def optional (layout : Layout) : Layout := fun extent =>
  { extent := ((layout extent.addState).onward.addState).addLinks 2 }

/-- What matches the empty text takes more states to be repeated. -/
def anyNumber (layout : Layout) (matchesEmpty : Bool) : Layout := fun extent =>
  if matchesEmpty then
    { extent := ((layout extent).onward.addStates 3).addLinks 4 }
  else
    { extent := (layout extent.addState).onward.addLinks 1, endBranches := true }

def atLeast (layout : Layout) (least : Nat) : Layout := fun extent =>
  { extent := ((layout.copies least extent).onward.addState).addLinks 1, endBranches := true }

/-- So many copies after what is laid, each of which may be the last. -/
def further (layout : Layout) : Nat → Laid → Laid
  | 0, laid => laid
  | count + 1, laid =>
      if laid.extent.isTooHeavy then laid
      else further layout count (layout (laid.onward.addState.addLinks 2))

def between (layout : Layout) (least more : Nat) : Layout := fun extent =>
  let needed := layout.copies least extent
  let laid := layout.further more { needed with extent := needed.extent.addState }
  { extent := laid.onward }

def repeated (layout : Layout) (matchesEmpty : Bool) (least : Nat) (most : Option Nat) : Layout :=
  match least, most with
  | 0, some 1 => layout.optional
  | 0, none => layout.anyNumber matchesEmpty
  | least, none => layout.atLeast least
  | least, some most =>
      if least = most then layout.copies least else layout.between least (most - least)

/-- The state that branches is added after the first two alternatives. -/
def alternatives : List Layout → Layout
  | [], extent => single extent
  | [layout], extent => layout extent
  | first :: second :: others, extent =>
      let extent := ((second (first extent).onward).onward.addStates 2).addLinks 2
      { extent := others.foldl (fun extent layout => (layout extent).onward.addLinks 1) extent }

end Layout

/-! ## Patterns -/

def literal? : Pattern → Option (List Char)
  | .literal characters => some characters
  | _ => none

mutual

/-- Backward, no text is captured. -/
def layout (backward : Bool) : Pattern → Layout
  | .empty => .single
  | .literal characters => fun extent =>
      { extent := extent.addStates (literalLength characters) }
  | .one set _ => fun extent => { extent := laySet backward set extent }
  | .assertion _ _ => .single
  | .repeated body least most _ =>
      let matchesEmpty := !((minimumLength body).any (0 < ·))
      (layout backward body).repeated matchesEmpty least most
  | .captured _ body => fun extent =>
      if backward then layout backward body extent
      else { extent := (layout backward body extent.addState).onward.addState }
  | .sequence parts =>
      let inner := layouts backward parts
      .inTurn (if backward then inner.reverse else inner)
  | .either branches =>
      match branches.mapM literal? with
      | some words => fun extent => { extent := layWords backward words extent }
      | none => .alternatives (layouts backward branches)

def layouts (backward : Bool) : List Pattern → List Layout
  | [] => []
  | pattern :: patterns => layout backward pattern :: layouts backward patterns

end

/-- The extent of the whole automaton. Unless the pattern is anchored, any number of
bytes is passed over first. Forward, the whole match is captured. -/
def extent (backward : Bool) (pattern : Pattern) : Extent :=
  let isAnchored := if backward then pattern.isAnchoredAtEnd else pattern.isAnchoredAtStart
  let entrance : Extent := if isAnchored then { states := 1 }
    else { states := 3, links := 2, transitions := 1 }
  if backward then
    (pattern.layout backward entrance).onward.addState
  else
    (pattern.layout backward entrance.addState).onward.addStates 2

def isTooHeavy (backward : Bool) (pattern : Pattern) : Bool :=
  (pattern.extent backward).isTooHeavy

end Deduction.Pattern
