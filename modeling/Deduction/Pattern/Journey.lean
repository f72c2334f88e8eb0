/-! # Journeys

A journey relates the places of a text where it may begin to those where it may
end, which are never before them. A set of places is kept as the bits of a
number. -/

namespace Deduction.Pattern

abbrev Places := Nat

/-- For each place, the places where a journey from there may end. -/
structure Journey where
  ends : Array Places

namespace Journey

def size (journey : Journey) : Nat :=
  journey.ends.size

def ofPlaces (size : Nat) (endsOf : Nat → Places) : Journey :=
  ⟨(Array.range size).map endsOf⟩

/-- The journey that stays where it is, at the places of a kind. -/
def staying (size : Nat) (isKind : Nat → Bool) : Journey :=
  ofPlaces size fun place => if isKind place then 1 <<< place else 0

def never (size : Nat) : Journey :=
  ofPlaces size fun _ => 0

/-- Where the journey may end that begins at one of the places. The rounds bound
the number of places. -/
def fromAny (journey : Journey) : Nat → Places → Places
  | 0, _ => 0
  | rounds + 1, places =>
      if places = 0 then
        0
      else
        let last := places.log2
        journey.ends.getD last 0 ||| journey.fromAny rounds (places ^^^ (1 <<< last))

def image (journey : Journey) (places : Places) : Places :=
  journey.fromAny journey.size places

def followedBy (first second : Journey) : Journey :=
  ⟨first.ends.map second.image⟩

def or (left right : Journey) : Journey :=
  ofPlaces left.size fun place => left.ends.getD place 0 ||| right.ends.getD place 0

/-- The journey or none at all. -/
def optional (journey : Journey) : Journey :=
  (staying journey.size fun _ => true).or journey

/-- The journey made so many times. -/
def times (journey : Journey) (count : Nat) : Journey :=
  if count = 0 then
    staying journey.size fun _ => true
  else if count = 1 then
    journey
  else
    let half := journey.times (count / 2)
    let twice := half.followedBy half
    if count % 2 = 0 then twice else twice.followedBy journey
termination_by count
decreasing_by omega

/-- The journey made any number of times. As journeys lead onward, the last
places are settled first. -/
def anyTimes (journey : Journey) : Journey :=
  (List.range journey.size).foldr
    (fun place found =>
      let onward := journey.ends.getD place 0
      let later := if onward.testBit place then onward ^^^ (1 <<< place) else onward
      ⟨found.ends.setIfInBounds place ((1 <<< place) ||| found.image later)⟩)
    (never journey.size)

/-- The journey made at least and at most so many times. More rounds than there
are places lead nowhere else. -/
def repeated (journey : Journey) (least : Nat) (most : Option Nat) : Journey :=
  let needed := journey.times (min least journey.size)
  match most with
  | none => needed.followedBy journey.anyTimes
  | some most =>
      needed.followedBy (journey.optional.times (min (most - least) journey.size))

end Journey

end Deduction.Pattern
