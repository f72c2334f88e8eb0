/-! # Numerals

A number is written as an integer (`-3`, `1_000`), as a quotient of integers
(`-1/2`) or as a decimal (`1.56`, `-.25`). Every numeral denotes an exact
rational, so orderings and arithmetic on numerals never round. -/

namespace Deduction

/-! ## Digits -/

namespace Numeral

/-- The number written by a run of decimal digits, most significant first. -/
def ofDigits (digits : List Char) : Nat :=
  Nat.ofDigitChars 10 digits 0

def allDigits (text : List Char) : Bool :=
  text.all Char.isDigit

/-- The parts of a text before and after the first occurrence of `separator`. -/
def cutAt (separator : Char) : List Char → Option (List Char × List Char)
  | [] => none
  | head :: tail =>
      if head = separator then
        some ([], tail)
      else
        (cutAt separator tail).map fun parts => (head :: parts.1, parts.2)

/-! ## Reading

An integer has at most one sign. Underscores may stand between or after its
digits and are ignored; the first character after the sign is a digit. -/

def readUnsigned : List Char → Option Nat
  | [] => none
  | first :: rest =>
      if first.isDigit && rest.all (fun c => c.isDigit || c == '_') then
        some (ofDigits (first :: rest.filter Char.isDigit))
      else
        none

def readInteger : List Char → Option Int
  | '-' :: rest => (readUnsigned rest).map fun value => -(value : Int)
  | '+' :: rest => (readUnsigned rest).map fun value => (value : Int)
  | text => (readUnsigned text).map fun value => (value : Int)

/-- A quotient is undefined when its denominator is zero. -/
def readQuotient (numerator denominator : List Char) : Option Rat :=
  match readInteger numerator, readInteger denominator with
  | some n, some d => if d = 0 then none else some (Rat.divInt n d)
  | _, _ => none

/-- The digits before and after the point, of which at least one is present,
form the numerator of a decimal fraction. A decimal takes no `+` sign and no
underscore. -/
def readUnsignedDecimal (whole fraction : List Char) : Option Rat :=
  if allDigits whole && allDigits fraction && !(whole ++ fraction).isEmpty then
    some (mkRat (ofDigits (whole ++ fraction)) (Nat.pow 10 fraction.length))
  else
    none

def readDecimal : List Char → List Char → Option Rat
  | '-' :: whole, fraction => (readUnsignedDecimal whole fraction).map fun value => -value
  | whole, fraction => readUnsignedDecimal whole fraction

/-- A point, if there is one, decides that the text is read as a decimal. -/
def readCharacters (text : List Char) : Option Rat :=
  match cutAt '.' text with
  | some (whole, fraction) => readDecimal whole fraction
  | none =>
      match cutAt '/' text with
      | some (numerator, denominator) => readQuotient numerator denominator
      | none => (readInteger text).map fun value => (value : Rat)

/-- The value of a numeral, or nothing for any other text. -/
def read (text : String) : Option Rat :=
  readCharacters text.toList

/-! ## Writing

A value is written in lowest terms, as an integer where possible. -/

def write (value : Rat) : String :=
  if value.den = 1 then
    toString value.num
  else
    toString value.num ++ "/" ++ toString value.den

end Numeral

/-! ## Kinds of numbers -/

/-- The kinds of number sets, from the smallest to the largest. -/
inductive NumberKind where
  | naturals
  | rationals
  | reals
  deriving DecidableEq

namespace NumberKind

def rank : NumberKind → Nat
  | naturals => 0
  | rationals => 1
  | reals => 2

instance : LE NumberKind where
  le smaller larger := smaller.rank ≤ larger.rank

instance (smaller larger : NumberKind) : Decidable (smaller ≤ larger) :=
  inferInstanceAs (Decidable (smaller.rank ≤ larger.rank))

/-- A natural is written by digits alone; decimals are written only for reals. -/
def isLiteral (kind : NumberKind) (name : String) : Bool :=
  match kind with
  | naturals => !name.toList.isEmpty && Numeral.allDigits name.toList
  | rationals => !name.toList.contains '.' && (Numeral.read name).isSome
  | reals => (Numeral.read name).isSome

/-- The conventional letter of the number set. -/
def letter : NumberKind → String
  | naturals => "N"
  | rationals => "Q"
  | reals => "R"

end NumberKind

/-! ## Orderings -/

inductive Relation where
  | less
  | atMost
  | greater
  | atLeast
  | equal
  deriving DecidableEq

namespace Relation

def holds (relation : Relation) (left right : Rat) : Bool :=
  match relation with
  | less => left < right
  | atMost => left ≤ right
  | greater => right < left
  | atLeast => right ≤ left
  | equal => left = right

def symbol : Relation → String
  | less => "<"
  | atMost => "≤"
  | greater => ">"
  | atLeast => "≥"
  | equal => "="

end Relation

end Deduction
