/-! # Sets of characters

A set of characters is a list of ranges of their codes, in ascending order and
with gaps between them. -/

namespace Deduction

structure CharacterSet where
  ranges : List (Nat × Nat)
  deriving DecidableEq

namespace CharacterSet

def empty : CharacterSet :=
  ⟨[]⟩

def contains (set : CharacterSet) (c : Char) : Bool :=
  set.ranges.any fun range => range.1 ≤ c.toNat && c.toNat ≤ range.2

/-- A range followed by ranges in ascending order, where those that meet are
joined. -/
def joinFrom (first last : Nat) : List (Nat × Nat) → List (Nat × Nat)
  | [] => [(first, last)]
  | (low, high) :: rest =>
      if low ≤ last + 1 then joinFrom first (max last high) rest
      else (first, last) :: joinFrom low high rest

/-- The characters of ranges in any order, which may overlap. -/
def ofCodes (ranges : List (Nat × Nat)) : CharacterSet :=
  match ranges.mergeSort fun left right => left.1 ≤ right.1 with
  | [] => empty
  | (first, last) :: rest => ⟨joinFrom first last rest⟩

def ofRanges (ranges : List (Char × Char)) : CharacterSet :=
  ofCodes (ranges.map fun range => (range.1.toNat, range.2.toNat))

def range (first last : Char) : CharacterSet :=
  ofRanges [(first, last)]

def single (c : Char) : CharacterSet :=
  range c c

/-- The only character of the set. -/
def only? (set : CharacterSet) : Option Char :=
  match set.ranges with
  | [(first, last)] => if first = last then some (Char.ofNat first) else none
  | _ => none

def isAscii (set : CharacterSet) : Bool :=
  set.ranges.all fun range => range.2 < 128

/-! ## Operations -/

def union (left right : CharacterSet) : CharacterSet :=
  ofCodes (left.ranges ++ right.ranges)

def lastCode : Nat := 0x10FFFF

/-- The gaps of the ranges from a code on. -/
def gaps (start : Nat) : List (Nat × Nat) → List (Nat × Nat)
  | [] => if start ≤ lastCode then [(start, lastCode)] else []
  | (low, high) :: rest =>
      if start < low then (start, low - 1) :: gaps (high + 1) rest else gaps (high + 1) rest

/-- No character has a code from `D800` to `DFFF`, so no range begins or ends
there. A gap of these codes alone comes out with its bounds exchanged. -/
def withinCharacters (range : Nat × Nat) : Nat × Nat :=
  let isNoCode := fun (code : Nat) => 0xD800 ≤ code && code ≤ 0xDFFF
  (if isNoCode range.1 then 0xE000 else range.1, if isNoCode range.2 then 0xD7FF else range.2)

/-- The characters outside of a set. If the set has the two characters around the
codes that are none in different ranges, they are taken for a gap. -/
def complement (set : CharacterSet) : CharacterSet :=
  ⟨(gaps 0 set.ranges).map fun gap =>
    let (first, last) := withinCharacters gap
    (min first last, max first last)⟩

def intersection (left right : CharacterSet) : CharacterSet :=
  ⟨left.ranges.flatMap fun a => right.ranges.filterMap fun b =>
    if max a.1 b.1 ≤ min a.2 b.2 then some (max a.1 b.1, min a.2 b.2) else none⟩

def difference (left right : CharacterSet) : CharacterSet :=
  let outside := ((gaps 0 right.ranges).map withinCharacters).filter fun gap => gap.1 ≤ gap.2
  left.intersection ⟨outside⟩

def symmetricDifference (left right : CharacterSet) : CharacterSet :=
  (left.union right).difference (left.intersection right)

/-- The ranges of a set between two codes, moved by a distance. -/
def moved (set : CharacterSet) (first last : Char) (move : Nat → Nat) : List (Nat × Nat) :=
  (set.intersection (range first last)).ranges.map fun range => (move range.1, move range.2)

/-- The set together with the other case of its ASCII letters. -/
def folded (set : CharacterSet) : CharacterSet :=
  set.union (ofCodes (set.moved 'a' 'z' (· - 32) ++ set.moved 'A' 'Z' (· + 32)))

end CharacterSet

end Deduction
