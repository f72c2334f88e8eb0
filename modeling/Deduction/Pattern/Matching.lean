import Deduction.Pattern
import Deduction.Pattern.Journey

/-! # Matching

A pattern matches a part of a text if the journey it makes leads from the start
of that part to its end. -/

namespace Deduction.Pattern

/-- Holds if the characters stand at a place of the text. -/
def standsAt (text : Array Char) : Nat → List Char → Bool
  | _, [] => true
  | place, c :: rest => text[place]? == some c && standsAt text (place + 1) rest

def characterBefore (text : Array Char) (place : Nat) : Option Char :=
  if place = 0 then none else text[place - 1]?

mutual

def journey (text : Array Char) : Pattern → Journey
  | .empty => .staying (text.size + 1) fun _ => true
  | .literal characters =>
      .ofPlaces (text.size + 1) fun place =>
        if standsAt text place characters then 1 <<< (place + characters.length) else 0
  | .one set _ =>
      .ofPlaces (text.size + 1) fun place =>
        if text[place]?.any set.contains then 1 <<< (place + 1) else 0
  | .assertion kind _ =>
      .staying (text.size + 1) fun place => kind.holds (characterBefore text place) text[place]?
  | .repeated body least most _ => (journey text body).repeated least most
  | .captured _ body => journey text body
  | .sequence parts => sequenceJourney text parts
  | .either branches => eitherJourney text branches

def sequenceJourney (text : Array Char) : List Pattern → Journey
  | [] => .staying (text.size + 1) fun _ => true
  | [part] => journey text part
  | part :: parts => (journey text part).followedBy (sequenceJourney text parts)

def eitherJourney (text : Array Char) : List Pattern → Journey
  | [] => .never (text.size + 1)
  | [branch] => journey text branch
  | branch :: branches => (journey text branch).or (eitherJourney text branches)

end

/-! ## Ends of matches

To find where matches may end, journeys are needed only for what is repeated. -/

/-- The places of the text before characters of a kind. -/
def placesOf (text : Array Char) (isKind : Char → Bool) : Places :=
  Nat.fold text.size
    (fun place _ places => if isKind text[place] then places ||| (1 <<< place) else places) 0

/-- The places that are reached from some places by a character of a kind. -/
def reachedBy (text : Array Char) (isKind : Char → Bool) (places : Places) : Places :=
  (places &&& placesOf text isKind) <<< 1

/-- The places that are reached from some places by characters in turn. -/
def reachedByAll (text : Array Char) : List Char → Places → Places
  | [], places => places
  | c :: rest, places =>
      if places = 0 then 0 else reachedByAll text rest (reachedBy text (· == c) places)

mutual

/-- Where matches of the pattern may end that begin at one of the places. -/
def ends (text : Array Char) : Pattern → Places → Places
  | .empty, places => places
  | .literal characters, places => reachedByAll text characters places
  | .one set _, places => reachedBy text set.contains places
  | .assertion kind scripts, places => (journey text (.assertion kind scripts)).image places
  | .repeated body least most _, places =>
      if least = 0 ∧ most = some 1 then places ||| ends text body places
      else ((journey text body).repeated least most).image places
  | .captured _ body, places => ends text body places
  | .sequence parts, places => endsInTurn text parts places
  | .either branches, places => endsOfAny text branches places

def endsInTurn (text : Array Char) : List Pattern → Places → Places
  | [], places => places
  | part :: parts, places =>
      if places = 0 then 0 else endsInTurn text parts (ends text part places)

def endsOfAny (text : Array Char) : List Pattern → Places → Places
  | [], _ => 0
  | branch :: branches, places => ends text branch places ||| endsOfAny text branches places

end

/-- Holds if some part of the text matches the pattern. -/
def occursIn (pattern : Pattern) (text : String) : Bool :=
  let characters := text.toList.toArray
  let everywhere := (1 <<< (characters.size + 1)) - 1
  pattern.ends characters everywhere != 0

end Deduction.Pattern
