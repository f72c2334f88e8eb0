import Deduction.Pattern.Encoding
import Deduction.Pattern.Extent

/-! # Words in automata

Alternatives that are all words share what they begin with. Where one of them
ends, the transitions are closed, and those of later ones are kept apart. -/

namespace Deduction.Pattern

/-- Add the rest of a word to the group of its first byte. -/
def addWord (byte : Nat) (rest : List Nat) :
    List (Nat × List (List Nat)) → List (Nat × List (List Nat))
  | [] => [(byte, [rest])]
  | (byte', rests) :: groups =>
      if byte = byte' then (byte', rests ++ [rest]) :: groups
      else (byte', rests) :: addWord byte rest groups

/-- The groups of words by their first bytes, in sections that end where a word
ends. A word that ends before any other went on is counted once. -/
def sections (hasEnded hasTransitions : Bool) (current : List (Nat × List (List Nat))) :
    List (List Nat) → List (List (Nat × List (List Nat)))
  | [] => [current]
  | [] :: words =>
      if hasEnded && !hasTransitions then
        sections hasEnded hasTransitions current words
      else
        current :: sections true hasTransitions [] words
  | (byte :: rest) :: words => sections hasEnded true (addWord byte rest current) words

/-- Add the state of a section, and its transitions if there are several. -/
def laySection (extent : Extent) (groups : List (Nat × List (List Nat))) : Extent :=
  match groups with
  | [] => extent
  | [_] => extent.addState
  | _ => extent.addState.addTransitions groups.length

/-- Add what is below a state from which the words go on. -/
def layBelow : Nat → List (List Nat) → Extent → Extent
  | 0, _, extent => extent
  | depth + 1, words, extent =>
      if words.all List.isEmpty then
        extent
      else
        let found := sections false false [] words
        let links := (found.filter fun groups => !groups.isEmpty).length + (found.length - 1)
        let extent := (found.foldl laySection extent).addState.addLinks links
        found.flatten.foldl (fun extent group => layBelow depth group.2 extent) extent

/-- Add words, given by their characters, as alternatives. -/
def layWords (backward : Bool) (words : List (List Char)) (extent : Extent) : Extent :=
  let words := words.map fun characters =>
    let bytes := characters.flatMap encodedBytes
    if backward then bytes.reverse else bytes
  let depth := (words.map List.length).foldl max 0 + 1
  layBelow depth words extent.addState

end Deduction.Pattern
