import Deduction.Pattern.Reading

/-! # Escapes

What a backslash begins: a character given by its number, a character that
would have a meaning of its own, a set of characters, or an anchor. -/

namespace Deduction.Pattern.Reader

def readProperty (start : Nat) : Reader SetExpression := do
  advanceSpaced
  match ← next with
  | none => failHere .escapeUnexpectedEnd
  | some '\x7b' =>
      advanceSpaced
      let name ← takeRun (· != '\x7d') (← remaining)
      if (← next).isNone then
        failHere .escapeUnexpectedEnd
      else
        advance
        return .property ⟨start, ← place⟩ name
  | some '\\' => failNext .propertyInvalid
  | some c =>
      advanceSpaced
      return .property ⟨start, ← place⟩ [c]

/-- A boundary may be qualified in braces, which otherwise begin a count. -/
def readBoundary (start : Nat) : Reader WordPlace := do
  let saved ← get
  let opening ← place
  let isLetter := fun (c : Char) => c.isAlpha || c == '-'
  if (← next) = some '\x7b' then
    advanceSpaced
    let first ← place
    match ← next with
    | none => fail .wordBoundaryUnexpectedEnd start (← place)
    | some c =>
        if isLetter c then
          let name ← takeRun isLetter (← remaining)
          let past ← place
          if (← next) = some '\x7d' then
            advance
            match String.ofList name with
            | "start" => return .first
            | "end" => return .past
            | "start-half" => return .firstHalf
            | "end-half" => return .pastHalf
            | _ => fail .wordBoundaryUnrecognized first past
          else
            fail .wordBoundaryUnclosed opening past
        else
          set saved
          return .boundary
  else
    return .boundary

/-- The characters that stand for themselves when they are escaped. -/
def isEscapable (c : Char) : Bool :=
  c.toNat < 128 && !c.isAlphanum && c != '<' && c != '>'

def controlCharacter : Char → Option Char
  | 'a' => some '\x07'
  | 'f' => some '\x0c'
  | 't' => some '\t'
  | 'n' => some '\n'
  | 'r' => some '\r'
  | 'v' => some '\x0b'
  | _ => none

def readAnchor (start : Nat) (c : Char) : Reader Expression := do
  let here ← place
  match c with
  | 'A' => return .anchor ⟨start, here⟩ .textStart
  | 'z' => return .anchor ⟨start, here⟩ .textEnd
  | 'b' =>
      let wordPlace ← readBoundary start
      return .anchor ⟨start, ← place⟩ (.word wordPlace)
  | 'B' => return .anchor ⟨start, here⟩ (.word .noBoundary)
  | '<' => return .anchor ⟨start, here⟩ (.word .first)
  | '>' => return .anchor ⟨start, here⟩ (.word .past)
  | _ => fail .escapeUnrecognized start here

def shorthand? : Char → Option (Shorthand × Bool)
  | 'd' => some (.digit, false)
  | 's' => some (.space, false)
  | 'w' => some (.word, false)
  | 'D' => some (.digit, true)
  | 'S' => some (.space, true)
  | 'W' => some (.word, true)
  | _ => none

def readEscape : Reader Expression := do
  let start ← place
  advance
  match ← next with
  | none => fail .escapeUnexpectedEnd start (← place)
  | some 'x' => return .one (.literal (← readHex start 2))
  | some 'u' => return .one (.literal (← readHex start 4))
  | some 'U' => return .one (.literal (← readHex start 8))
  | some 'p' => return .one (← readProperty start)
  | some 'P' => return .one (← readProperty start)
  | some c =>
      if c.isDigit then
        fail .backreference start ((← place) + 1)
      else
        advance
        let span : Span := ⟨start, ← place⟩
        match shorthand? c, controlCharacter c with
        | some (kind, negated), _ => return .one (.shorthand span kind negated)
        | none, some character => return .one (.literal { span, character })
        | none, none =>
            if isEscapable c then
              return .one (.literal { span, character := c })
            else
              readAnchor start c

end Deduction.Pattern.Reader
