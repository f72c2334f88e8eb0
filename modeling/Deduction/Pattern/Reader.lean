import Deduction.Pattern.Bracket
import Deduction.Text.Alphabetic
import Deduction.Text.Numeric

/-! # Reading patterns

Groups, repetitions and branches, up to the expression that a text writes. -/

namespace Deduction.Pattern

namespace Reader

/-! ## Groups -/

def flag? : Char → Option Flag
  | 'i' => some .ignoreCase
  | 'm' => some .multiLine
  | 's' => some .dotMatchesLineFeed
  | 'U' => some .swapGreed
  | 'u' => some .unicode
  | 'R' => some .carriageReturns
  | 'x' => some .spaced
  | _ => none

/-- Flags up to the colon or parenthesis that ends them, in order. -/
def readFlags : Nat → List FlagItem → Reader (List FlagItem)
  | 0, _ => failHere .flagUnexpectedEnd
  | rounds + 1, items => do
      let here ← place
      let add := fun (flag : Option Flag) (duplicate : Reason) => do
        match items.find? fun item => item.flag = flag with
        | some earlier =>
            throw { reason := duplicate, span := ⟨here, here + 1⟩, other := some earlier.span }
        | none =>
            advance
            readFlags rounds (items ++ [⟨⟨here, here + 1⟩, flag⟩])
      match ← next with
      | none => failHere .flagUnexpectedEnd
      | some '-' => add none .flagRepeatedNegation
      | some c =>
          if c = ':' || c = ')' then
            match items.getLast? with
            | some ⟨span, none⟩ => fail .flagDanglingNegation span.first span.past
            | _ => return items
          else
            match flag? c with
            | none => failNext .flagUnrecognized
            | some flag => add (some flag) .flagDuplicate

def isNameCharacter (c : Char) (isFirst : Bool) : Bool :=
  c == '_' || Text.isAlphabetic c ||
    (!isFirst && (c == '.' || c == '[' || c == ']' || Text.isNumeric c))

def nameCharacters : Nat → Bool → Reader (List Char)
  | 0, _ => return []
  | rounds + 1, isFirst => do
      match ← next with
      | none => failHere .groupNameUnexpectedEnd
      | some '>' => return []
      | some c =>
          if isNameCharacter c isFirst then
            advance
            return c :: (← nameCharacters rounds false)
          else
            failNext .groupNameInvalid

def readGroupName : Reader Unit := do
  let first ← place
  let name := String.ofList (← nameCharacters ((← remaining) + 1) true)
  let span : Span := ⟨first, ← place⟩
  advance
  if name = "" then
    fail .groupNameEmpty first first
  else
    let reading ← get
    match reading.names.lookup name with
    | some earlier => throw { reason := .groupNameDuplicate, span, other := some earlier }
    | none => set { reading with names := (name, span) :: reading.names }

/-- What an opening parenthesis begins: flags for what follows, or a group. -/
inductive Opening where
  | directive (flags : List FlagItem)
  | group (isCaptured : Bool) (flags : List FlagItem)

def readOpening : Reader Opening := do
  let start ← place
  advanceSpaced
  let inner ← place
  if ← takeAny [['?', '='], ['?', '!'], ['?', '<', '='], ['?', '<', '!']] then
    fail .lookAround start (← place)
  else if ← takeAny [['?', 'P', '<'], ['?', '<']] then
    readGroupName
    return .group true []
  else if ← takeText ['?'] then
    if (← next).isNone then
      fail .groupUnclosed start (start + 1)
    else
      let flags ← readFlags ((← remaining) + 1) []
      let closing ← next
      advance
      if closing = some ')' then
        if flags.isEmpty then
          fail .repetitionMissing inner inner
        else
          return .directive flags
      else
        return .group false flags
  else
    return .group true []

def enterSpaced (flags : List FlagItem) : Reader Unit :=
  modify fun reading =>
    { reading with spaced := (flagState .spaced false flags).getD reading.spaced }

/-! ## Repetitions -/

/-- The expression that a repetition applies to, which is the item read last. -/
def repetend (items : List Expression) : Reader (Expression × List Expression) :=
  match items with
  | [] => failHere .repetitionMissing
  | .flags _ _ :: _ => failHere .repetitionMissing
  | last :: others => return (last, others)

/-- A question mark after a repetition makes it lazy. -/
def readLaziness : Reader Bool :=
  takeText ['?']

def readUncounted (least : Nat) (most : Option Nat) (items : List Expression) :
    Reader (List Expression) := do
  let (last, others) ← repetend items
  advance
  let isLazy ← readLaziness
  return .repeated ⟨last.span.first, ← place⟩ last least most isLazy :: others

def readBounds (start : Nat) : Reader (Nat × Option Nat) := do
  let unclosed := fun (_ : Unit) => do
    if (← next).isNone then fail .countUnclosed start (← place) else pure ()
  advanceSpaced
  unclosed ()
  let least ← readCountBound
  unclosed ()
  if (← next) = some ',' then
    advanceSpaced
    unclosed ()
    if (← next) = some '\x7d' then
      return (← liftExcept least, none)
    else
      let least ← liftExcept least
      let most ← liftExcept (← readCountBound)
      return (least, some most)
  else
    let count ← liftExcept least
    return (count, some count)

def readCounted (items : List Expression) : Reader (List Expression) := do
  let (last, others) ← repetend items
  let start ← place
  let (least, most) ← readBounds start
  if (← next) = some '\x7d' then
    advanceSpaced
    let isLazy ← readLaziness
    if least ≤ most.getD least then
      return .repeated ⟨last.span.first, ← place⟩ last least most isLazy :: others
    else
      fail .countInvalid start (← place)
  else
    fail .countUnclosed start (← place)

/-! ## Expressions -/

/-- A branch whose items are given last item first. -/
def branchOf (start past : Nat) : List Expression → Expression
  | [] => .empty ⟨start, past⟩
  | [item] => item
  | items => .concatenation ⟨start, past⟩ items.reverse

/-- All branches of a group. The branches before the last bar and the items after
it are given last first. -/
def alternativesOf (origin start past : Nat) (branches items : List Expression) : Expression :=
  let last := branchOf start past items
  match branches with
  | [] => last
  | _ => .alternatives ⟨origin, past⟩ (last :: branches).reverse

def readPrimitive (c : Char) : Reader Expression := do
  let here ← place
  match c with
  | '\\' => readEscape
  | '.' =>
      advance
      return .dot ⟨here, here + 1⟩
  | '^' =>
      advance
      return .anchor ⟨here, here + 1⟩ .lineStart
  | '$' =>
      advance
      return .anchor ⟨here, here + 1⟩ .lineEnd
  | '[' => return .one (← readSet)
  | _ => return .one (.literal (← readVerbatim c))

/-- Read up to the end of the group or, outside of groups, of the text. The
branches before the last bar and the items after it are given last first. -/
def readBranches (origin : Nat) :
    Nat → Bool → Nat → List Expression → List Expression → Reader Expression
  | 0, _, start, _, _ => return .empty ⟨start, start⟩
  | rounds + 1, inGroup, start, branches, items => do
      skipSpace
      let here ← place
      let onward := readBranches origin rounds inGroup start branches
      match ← next with
      | none => return alternativesOf origin start here branches items
      | some ')' =>
          if inGroup then return alternativesOf origin start here branches items
          else failNext .groupUnopened
      | some '|' =>
          advance
          readBranches origin rounds inGroup (here + 1) (branchOf start here items :: branches) []
      | some '(' =>
          match ← readOpening with
          | .directive flags =>
              enterSpaced flags
              onward (.flags ⟨here, ← place⟩ flags :: items)
          | .group isCaptured flags =>
              let outer := (← get).spaced
              enterSpaced flags
              let inner ← place
              let body ← readBranches inner rounds true inner [] []
              if (← next).isNone then
                fail .groupUnclosed here (here + 1)
              else
                advance
                modify fun reading => { reading with spaced := outer }
                onward (.group ⟨here, ← place⟩ isCaptured flags body :: items)
      | some '?' => onward (← readUncounted 0 (some 1) items)
      | some '*' => onward (← readUncounted 0 none items)
      | some '+' => onward (← readUncounted 1 none items)
      | some '\x7b' => onward (← readCounted items)
      | some c => onward ((← readPrimitive c) :: items)

end Reader

/-- The expression that a text writes. -/
def Expression.read (text : List Char) : Except Flaw Expression := do
  let (expression, _) ←
    (Reader.readBranches 0 (text.length + 1) false 0 [] []).run
      { rest := text, size := text.length }
  expression.checkNesting 0
  return expression

end Deduction.Pattern
