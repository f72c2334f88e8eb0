import Deduction.Pattern.Escape

/-! # Sets in brackets

A set in brackets lists characters, ranges and further sets. Two of its parts
may be joined by an operator, and operators group to the left. -/

namespace Deduction.Pattern.Reader

def unclosedSet {α : Type} (opening : Span) : Reader α :=
  throw { reason := .setUnclosed, span := opening }

def readVerbatim (c : Char) : Reader Literal := do
  let here ← place
  advance
  return { span := ⟨here, here + 1⟩, character := c }

/-- Leading hyphens stand for themselves. -/
def leadingHyphens (start : Nat) : Nat → Reader (List SetExpression)
  | 0 => return []
  | rounds + 1 => do
      if (← next) = some '-' then
        let hyphen ← readVerbatim '-'
        skipSpace
        if (← next).isNone then
          fail .setUnclosed start start
        else
          return .literal hyphen :: (← leadingHyphens start rounds)
      else
        return []

/-- The opening bracket with the negation and the characters that stand for
themselves only there. -/
def openSet (start : Nat) : Reader (Bool × List SetExpression) := do
  let unclosed := fun (_ : Unit) => do
    if (← next).isNone then fail .setUnclosed start (← place) else pure ()
  advanceSpaced
  unclosed ()
  let negated := (← next) = some '^'
  if negated then
    advanceSpaced
    unclosed ()
  let hyphens ← leadingHyphens start (← remaining)
  if hyphens.isEmpty && (← next) = some ']' then
    let bracket ← readVerbatim ']'
    skipSpace
    unclosed ()
    return (negated, [.literal bracket])
  else
    return (negated, hyphens)

/-- A name such as `[:alpha:]`; anything else begins a set of its own. -/
def readNamedSet : Reader (Option SetExpression) := do
  let start ← place
  match (← get).rest with
  | '[' :: ':' :: rest =>
      let negated := rest.head? = some '^'
      let rest := if negated then rest.tail else rest
      let name := rest.takeWhile (· != ':')
      match rest.dropWhile (· != ':'), NamedSet.all.lookup (String.ofList name) with
      | ':' :: ']' :: _, some set =>
          let length := name.length + if negated then 5 else 4
          modify fun reading => reading.skip length
          return some (.named ⟨start, ← place⟩ set negated)
      | _, _ => return none
  | _ => return none

def readSetItem : Reader Expression := do
  match ← next with
  | some '\\' => readEscape
  | some c => return .one (.literal (← readVerbatim c))
  | none => failHere .setUnclosed

def asSetItem : Expression → Reader SetExpression
  | .one set => return set
  | other => throw { reason := .setEscapeInvalid, span := other.span }

def asBound : Expression → Reader Literal
  | .one (.literal value) => return value
  | other => throw { reason := .setRangeLiteral, span := other.span }

/-- The first character that is neither a blank nor the first hash sign. -/
def afterBlanks (isHashSeen : Bool) : List Char → Option Char
  | [] => none
  | c :: rest =>
      if Text.isBlank c then afterBlanks isHashSeen rest
      else if c = '#' && !isHashSeen then afterBlanks true rest
      else some c

/-- The character after the next, which decides whether a hyphen is a range. -/
def afterNext : Reader (Option Char) := do
  let reading ← get
  let rest := reading.rest.tail
  return if reading.spaced then afterBlanks false rest <|> rest.head? else rest.head?

def readRange (opening : Span) : Reader SetExpression := do
  let first ← readSetItem
  skipSpace
  match ← next, ← afterNext with
  | none, _ => unclosedSet opening
  | some '-', some ']' => asSetItem first
  | some '-', some '-' => asSetItem first
  | some '-', _ =>
      advanceSpaced
      if (← next).isNone then
        unclosedSet opening
      else
        let last ← readSetItem
        let lower ← asBound first
        let upper ← asBound last
        if lower.character ≤ upper.character then
          return .range lower upper
        else
          fail .setRangeInvalid lower.span.first upper.span.past
  | some _, _ => asSetItem first

/-- The items of a union, which are given last item first. -/
def unionOf (here : Nat) : List SetExpression → SetExpression
  | [] => .empty ⟨here, here⟩
  | [item] => item
  | last :: others =>
      let items := (last :: others).reverse
      let first := (items.head?.map (·.span.first)).getD here
      .union ⟨first, last.span.past⟩ items

def applyPending (pending : Option (SetOperator × SetExpression)) (right : SetExpression) :
    SetExpression :=
  match pending with
  | none => right
  | some (operator, left) =>
      .operation ⟨left.span.first, right.span.past⟩ operator left right

def closeSet (start : Nat) (negated : Bool) (set : SetExpression) : Reader SetExpression := do
  advance
  return .bracketed ⟨start, ← place⟩ negated set

/-- The items up to the closing bracket, given those that are read, last item
first. `pending` is an operator that waits for its right operand. -/
def readSetItems : Nat → Span → List SetExpression →
    Option (SetOperator × SetExpression) → Reader SetExpression
  | 0, opening, _, _ => unclosedSet opening
  | rounds + 1, opening, items, pending => do
      skipSpace
      let here ← place
      let operated := fun operator => do
        advance
        advance
        readSetItems rounds opening []
          (some (operator, applyPending pending (unionOf here items)))
      match (← get).rest with
      | [] => unclosedSet opening
      | ']' :: _ => return applyPending pending (unionOf here items)
      | '[' :: _ =>
          match ← readNamedSet with
          | some item => readSetItems rounds opening (item :: items) pending
          | none =>
              let (negated, first) ← openSet here
              let inner ← readSetItems rounds ⟨here, ← place⟩ first.reverse none
              let item ← closeSet here negated inner
              readSetItems rounds opening (item :: items) pending
      | '&' :: '&' :: _ => operated .intersection
      | '-' :: '-' :: _ => operated .difference
      | '~' :: '~' :: _ => operated .symmetricDifference
      | _ =>
          let item ← readRange opening
          readSetItems rounds opening (item :: items) pending

def readSet : Reader SetExpression := do
  let start ← place
  let (negated, first) ← openSet start
  let set ← readSetItems ((← remaining) + 1) ⟨start, ← place⟩ first.reverse none
  closeSet start negated set

end Deduction.Pattern.Reader
