import Deduction.Pattern.Expression

/-! # Reading from left to right

The state of reading a pattern, the characters that come next, and numbers.
Loops are bounded by the number of characters that are left, as every round
takes at least one. -/

namespace Deduction.Pattern

/-- The `place` is the number of characters read. If `spaced` is set, blanks and
comments in the pattern are skipped; `names` are the groups named so far. -/
structure Reading where
  rest : List Char
  size : Nat
  place : Nat := 0
  spaced : Bool := false
  names : List (String × Span) := []

/-- Pass over characters. -/
def Reading.skip (reading : Reading) (count : Nat) : Reading :=
  { reading with
    rest := reading.rest.drop count
    place := min (reading.place + count) reading.size }

abbrev Reader := StateT Reading (Except Flaw)

namespace Reader

/-! ## Places -/

def place : Reader Nat :=
  return (← get).place

def fail {α : Type} (reason : Reason) (first past : Nat) : Reader α :=
  throw { reason, span := ⟨first, past⟩ }

/-- Refuses at the place that is reached. -/
def failHere {α : Type} (reason : Reason) : Reader α := do
  let here ← place
  fail reason here here

/-- Refuses the character that comes next. -/
def failNext {α : Type} (reason : Reason) : Reader α := do
  let here ← place
  fail reason here (here + 1)

def next : Reader (Option Char) :=
  return (← get).rest.head?

def remaining : Reader Nat := do
  let reading ← get
  return reading.size - reading.place

def advance : Reader Unit :=
  modify fun reading => reading.skip 1

/-- The number of leading blanks and characters in comments, given whether the
text begins inside a comment. -/
def spaceLength : Bool → List Char → Nat
  | _, [] => 0
  | true, c :: rest => spaceLength (c != '\n') rest + 1
  | false, c :: rest =>
      if Text.isBlank c then spaceLength false rest + 1
      else if c = '#' then spaceLength true rest + 1
      else 0

def skipSpace : Reader Unit :=
  modify fun reading =>
    if reading.spaced then reading.skip (spaceLength false reading.rest) else reading

def advanceSpaced : Reader Unit := do
  advance
  skipSpace

def skipBlanks : Reader Unit :=
  modify fun reading => reading.skip (reading.rest.takeWhile Text.isBlank).length

/-- Take a text if it comes next. -/
def takeText (text : List Char) : Reader Bool := do
  let reading ← get
  if text.isPrefixOf reading.rest then
    set (reading.skip text.length)
    return true
  else
    return false

def takeAny : List (List Char) → Reader Bool
  | [] => return false
  | text :: texts => do
      if ← takeText text then return true else takeAny texts

/-! ## Numbers -/

/-- The characters of a kind that come next, with space between them skipped. -/
def takeRun (isPart : Char → Bool) : Nat → Reader (List Char)
  | 0 => return []
  | rounds + 1 => do
      match ← next with
      | some c =>
          if isPart c then
            advanceSpaced
            return c :: (← takeRun isPart rounds)
          else
            return []
      | none => return []

def countLimit : Nat := 4294967295

/-- A missing or too large number is handed on as a flaw, since it matters only
if the number is used. -/
def readCountBound : Reader (Except Flaw Nat) := do
  skipBlanks
  let first ← place
  let digits ← takeRun Char.isDigit (← remaining)
  let span : Span := ⟨first, ← place⟩
  skipBlanks
  let value := Nat.ofDigitChars 10 digits 0
  if digits.isEmpty then
    return .error { reason := .countDecimalEmpty, span }
  else if countLimit < value then
    return .error { reason := .decimalInvalid, span }
  else
    return .ok value

def isHexDigit (c : Char) : Bool :=
  c.isDigit || ('a' ≤ c && c ≤ 'f') || ('A' ≤ c && c ≤ 'F')

def hexDigitValue (c : Char) : Nat :=
  if c.isDigit then c.toNat - 48 else c.toLower.toNat - 87

def hexValue (digits : List Char) : Nat :=
  digits.foldl (fun value digit => 16 * value + hexDigitValue digit) 0

/-- The character of a number. -/
def characterOf (digits : List Char) (first past : Nat) : Reader Char := do
  let value := hexValue digits
  if value.isValidChar then
    return Char.ofNat value
  else
    fail .hexInvalid first past

def fixedHexDigits : Nat → Reader (List Char)
  | 0 => return []
  | count + 1 => do
      match ← next with
      | none => failHere .escapeUnexpectedEnd
      | some c =>
          if isHexDigit c then
            advanceSpaced
            return c :: (← fixedHexDigits count)
          else
            failNext .hexInvalidDigit

def bracedHexDigits (opening : Nat) : Nat → Reader (List Char)
  | 0 => return []
  | rounds + 1 => do
      match ← next with
      | none => fail .escapeUnexpectedEnd opening (← place)
      | some '\x7d' => return []
      | some c =>
          if isHexDigit c then
            advanceSpaced
            return c :: (← bracedHexDigits opening rounds)
          else
            failNext .hexInvalidDigit

/-- A character given by its number, after the letter that announces it. -/
def readHex (start digitCount : Nat) : Reader Literal := do
  advanceSpaced
  match ← next with
  | none => failHere .escapeUnexpectedEnd
  | some '\x7b' =>
      let opening ← place
      advanceSpaced
      let digits ← bracedHexDigits opening ((← remaining) + 1)
      let past ← place
      advanceSpaced
      if digits.isEmpty then
        fail .hexEmpty opening (← place)
      else
        let character ← characterOf digits (opening + 1) past
        return { span := ⟨start, ← place⟩, character }
  | some _ =>
      let first ← place
      let digits ← fixedHexDigits digitCount
      let past ← place
      let character ← characterOf digits first past
      return { span := ⟨start, past⟩, character, isByte := digitCount = 2 }

end Reader

end Deduction.Pattern
