/-! # Encodings of characters

A character is encoded as one to four bytes. The characters of a range are
encoded by finitely many sequences of byte ranges, which are listed in ascending
order. -/

namespace Deduction.Pattern

abbrev ByteRange := Nat × Nat

/-- The encodings of the codes from `first` to `last` by a leading byte, which
begins with `base`, and so many following bytes of six bits each. -/
def encodingsWith : (following base first last : Nat) → List (List ByteRange)
  | 0, base, first, last => [[(base + first, base + last)]]
  | following + 1, base, first, last =>
      let unit := Nat.pow 64 (following + 1)
      let low := first / unit
      let high := last / unit
      let led := fun (lead from_ to_ : Nat) =>
        (encodingsWith following 0x80 from_ to_).map ((base + lead, base + lead) :: ·)
      if low = high then
        led low (first % unit) (last % unit)
      else
        let isLowPartial := first % unit ≠ 0
        let isHighPartial := last % unit ≠ unit - 1
        let middleLow := if isLowPartial then low + 1 else low
        let middleHigh := if isHighPartial then high - 1 else high
        (if isLowPartial then led low (first % unit) (unit - 1) else []) ++
          (if middleLow ≤ middleHigh then
            [(base + middleLow, base + middleHigh) ::
              List.replicate (following + 1) (0x80, 0xBF)]
          else []) ++
          (if isHighPartial then led high 0 (last % unit) else [])

/-- The codes that are encoded alike: the number of following bytes, the base of
the leading byte, and the bounds. -/
def encodingClasses : List (Nat × Nat × Nat × Nat) :=
  [(0, 0x00, 0x0, 0x7F), (1, 0xC0, 0x80, 0x7FF), (2, 0xE0, 0x800, 0xD7FF),
    (2, 0xE0, 0xE000, 0xFFFF), (3, 0xF0, 0x10000, 0x10FFFF)]

def encodings (first last : Nat) : List (List ByteRange) :=
  encodingClasses.flatMap fun (following, base, low, high) =>
    if max first low ≤ min last high then
      encodingsWith following base (max first low) (min last high)
    else
      []

def encodedBytes (c : Char) : List Nat :=
  ((encodings c.toNat c.toNat).flatten).map Prod.fst

end Deduction.Pattern
