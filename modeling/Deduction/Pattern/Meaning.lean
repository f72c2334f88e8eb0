import Deduction.Pattern.Reader
import Deduction.Pattern.Weight
import Deduction.Pattern.Words

/-! # The meaning of pattern expressions

Flags hold from where they are set to the end of the group. Matching by Unicode
tables is not offered: what asks for them is refused, unless the flag `u` is
cleared, and then a set may not go beyond ASCII. -/

namespace Deduction.Pattern

structure Flags where
  ignoreCase : Bool := false
  multiLine : Bool := false
  dotMatchesLineFeed : Bool := false
  swapGreed : Bool := false
  unicode : Bool := true
  carriageReturns : Bool := false

def Flags.apply (flags : Flags) (items : List FlagItem) : Flags where
  ignoreCase := (flagState .ignoreCase false items).getD flags.ignoreCase
  multiLine := (flagState .multiLine false items).getD flags.multiLine
  dotMatchesLineFeed := (flagState .dotMatchesLineFeed false items).getD flags.dotMatchesLineFeed
  swapGreed := (flagState .swapGreed false items).getD flags.swapGreed
  unicode := (flagState .unicode false items).getD flags.unicode
  carriageReturns := (flagState .carriageReturns false items).getD flags.carriageReturns

/-! ## Sets -/

def NamedSet.characters : NamedSet → CharacterSet
  | alnum => .ofRanges [('0', '9'), ('A', 'Z'), ('a', 'z')]
  | alpha => .ofRanges [('A', 'Z'), ('a', 'z')]
  | ascii => .range '\x00' '\x7f'
  | blank => .ofRanges [('\t', '\t'), (' ', ' ')]
  | cntrl => .ofRanges [('\x00', '\x1f'), ('\x7f', '\x7f')]
  | digit => .range '0' '9'
  | graph => .range '!' '~'
  | lower => .range 'a' 'z'
  | print => .range ' ' '~'
  | punct => .ofRanges [('!', '/'), (':', '@'), ('[', '\x60'), ('\x7b', '~')]
  | space => .ofRanges [('\t', '\r'), (' ', ' ')]
  | upper => .range 'A' 'Z'
  | word => .ofRanges [('0', '9'), ('A', 'Z'), ('_', '_'), ('a', 'z')]
  | xdigit => .ofRanges [('0', '9'), ('A', 'F'), ('a', 'f')]

def Shorthand.characters : Shorthand → CharacterSet
  | digit => NamedSet.digit.characters
  | space => NamedSet.space.characters
  | word => NamedSet.word.characters

def SetOperator.apply : SetOperator → CharacterSet → CharacterSet → CharacterSet
  | intersection => .intersection
  | difference => .difference
  | symmetricDifference => .symmetricDifference

def refuse {α : Type} (reason : Reason) (span : Span) : Except Flaw α :=
  .error { reason, span }

/-- Without Unicode, ignoring case adds the other case of ASCII letters. With it,
what lists characters is refused. -/
def Flags.fold (flags : Flags) (span : Span) (listsCharacters : Bool) (set : CharacterSet) :
    Except Flaw CharacterSet :=
  if flags.ignoreCase then
    if flags.unicode then
      if listsCharacters then refuse .caseUnavailable span else .ok set
    else
      .ok set.folded
  else
    .ok set

/-- Without Unicode a complement would have to contain parts of characters. -/
def Flags.negate (flags : Flags) (span : Span) (negated : Bool) (set : CharacterSet) :
    Except Flaw CharacterSet :=
  if negated then
    if flags.unicode then .ok set.complement else refuse .invalidEncoding span
  else
    .ok set

/-- A character of a set, which is ASCII without Unicode. -/
def Literal.inSet (flags : Flags) (literal : Literal) : Except Flaw Char :=
  if flags.unicode || literal.character.toNat < 128 then
    .ok literal.character
  else if literal.isByte then
    refuse .invalidEncoding literal.span
  else
    refuse .unicodeNotAllowed literal.span

/-- Names are compared without case, blanks, hyphens and underscores, and without
the word `is` before them. -/
def propertyKey (name : List Char) : String :=
  let letters := name.map Char.toLower
  let letters := if ['i', 's'].isPrefixOf letters then letters.drop 2 else letters
  String.ofList (letters.filter fun c => c.toNat < 128 && c != ' ' && c != '_' && c != '-')

/-- Three abbreviations can only be meant as values of the general category. -/
def missingProperty (name : List Char) : Reason :=
  if ["cf", "lc", "sc"].contains (propertyKey name) then .propertyValueNotFound
  else .propertyNotFound

mutual

/-- Holds if characters or ranges are listed, not counting sets in brackets. -/
def SetExpression.listsCharacters : SetExpression → Bool
  | .literal _ => true
  | .range _ _ => true
  | .named _ _ _ => true
  | .union _ items => anyListsCharacters items
  | .empty _ => false
  | .shorthand _ _ _ => false
  | .property _ _ => false
  | .bracketed _ _ _ => false
  | .operation _ _ _ _ => false

def anyListsCharacters : List SetExpression → Bool
  | [] => false
  | item :: items => item.listsCharacters || anyListsCharacters items

end

mutual

def SetExpression.characters (flags : Flags) : SetExpression → Except Flaw CharacterSet
  | .empty _ => .ok .empty
  | .literal value => do return .single (← value.inSet flags)
  | .range first last => do return .range (← first.inSet flags) (← last.inSet flags)
  | .named span set negated => do
      flags.negate span negated (← flags.fold span true set.characters)
  | .shorthand span kind negated =>
      if flags.unicode then
        refuse .shorthandNotFound span
      else
        flags.negate span negated kind.characters
  | .property span name =>
      if flags.unicode then refuse (missingProperty name) span
      else refuse .unicodeNotAllowed span
  | .bracketed span negated set => do
      let inner := CharacterSet.ofCodes (← set.characters flags).ranges
      flags.negate span negated (← flags.fold span set.listsCharacters inner)
  | .union _ items => do return .ofCodes (← codesOfAll flags items)
  | .operation _ operator left right => do
      let leftSet := CharacterSet.ofCodes (← left.characters flags).ranges
      let rightSet := CharacterSet.ofCodes (← right.characters flags).ranges
      let rightFolded ← flags.fold right.span right.listsCharacters rightSet
      let leftFolded ← flags.fold left.span left.listsCharacters leftSet
      return operator.apply leftFolded rightFolded

def codesOfAll (flags : Flags) : List SetExpression → Except Flaw (List (Nat × Nat))
  | [] => .ok []
  | item :: items => do
      let set ← item.characters flags
      return set.ranges ++ (← codesOfAll flags items)

end

/-! ## Expressions -/

/-- A character outside of brackets. -/
def Literal.meaning (flags : Flags) (literal : Literal) : Except Flaw Pattern := do
  if !flags.unicode && literal.isByte && 128 ≤ literal.character.toNat then
    refuse .invalidEncoding literal.span
  else
    return .ofSet (← flags.fold literal.span true (.single literal.character)) (!flags.unicode)

def SetExpression.meaning (flags : Flags) : SetExpression → Except Flaw Pattern
  | .literal value => value.meaning flags
  | set => do return .ofSet (← set.characters flags) (!flags.unicode)

def dotCharacters (flags : Flags) : CharacterSet :=
  if flags.dotMatchesLineFeed then
    CharacterSet.empty.complement
  else if flags.carriageReturns then
    (CharacterSet.ofRanges [('\n', '\n'), ('\r', '\r')]).complement
  else
    (CharacterSet.single '\n').complement

def Anchor.meaning (flags : Flags) : Anchor → Pattern
  | lineStart =>
      .assertion (if flags.multiLine then .lineStart flags.carriageReturns else .textStart) false
  | lineEnd =>
      .assertion (if flags.multiLine then .lineEnd flags.carriageReturns else .textEnd) false
  | textStart => .assertion .textStart false
  | textEnd => .assertion .textEnd false
  | word place => .assertion (.word place) flags.unicode

mutual

/-- The pattern of an expression and the flags that hold after it. -/
def Expression.meaning (flags : Flags) : Expression → Except Flaw (Pattern × Flags)
  | .empty _ => .ok (.empty, flags)
  | .one set => do return (← set.meaning flags, flags)
  | .dot span =>
      if flags.unicode then .ok (.ofSet (dotCharacters flags) false, flags)
      else refuse .invalidEncoding span
  | .anchor _ kind => .ok (kind.meaning flags, flags)
  | .flags _ items => .ok (.empty, flags.apply items)
  | .group span isCaptured items body => do
      let (inner, _) ← body.meaning (flags.apply items)
      return (if isCaptured then .captured span.first inner else inner, flags)
  | .repeated _ body least most isLazy => do
      let (inner, flags) ← body.meaning flags
      return (inner.repeating least most (isLazy != flags.swapGreed), flags)
  | .concatenation _ items => do
      let (patterns, flags) ← meanings flags items
      return (.inSequence patterns, flags)
  | .alternatives _ branches => do
      let (patterns, flags) ← meanings flags branches
      return (.anyOf patterns, flags)

def meanings (flags : Flags) : List Expression → Except Flaw (List Pattern × Flags)
  | [] => .ok ([], flags)
  | expression :: expressions => do
      let (pattern, flags) ← expression.meaning flags
      let (patterns, flags) ← meanings flags expressions
      return (pattern :: patterns, flags)

end

/-! ## Reading -/

inductive Refusal where
  | flawed (flaw : Flaw)
  | tooHeavy
  | asksForAllScripts

def Refusal.message (text : List Char) : Refusal → String
  | flawed flaw => flaw.report text
  | tooHeavy => "Compiled regex exceeds size limit of " ++ toString weightLimit ++ " bytes."
  | asksForAllScripts => "error building NFA"

/-- The pattern that a text writes, whether or not it can be run. -/
def written (text : List Char) : Except Flaw Pattern := do
  let expression ← Expression.read text
  let (pattern, _) ← expression.meaning {}
  return pattern

/-- The pattern that a text writes, if it can be run. -/
def read (text : List Char) : Except Refusal Pattern :=
  match written text with
  | .error flaw => .error (.flawed flaw)
  | .ok pattern =>
      if pattern.amountsToWords then .ok pattern
      else if pattern.isTooHeavy false then .error .tooHeavy
      else if pattern.asksForAllScripts then .error .asksForAllScripts
      else if pattern.isTooHeavy true then .error .tooHeavy
      else .ok pattern

end Deduction.Pattern
