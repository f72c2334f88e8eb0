import Deduction.Pattern.Assertion
import Deduction.Pattern.Flaw

/-! # Pattern expressions

A pattern as it is written. Every part keeps its place in the text, so that a
flaw found later can still be marked there. -/

namespace Deduction.Pattern

/-! ## Flags -/

inductive Flag where
  | ignoreCase
  | multiLine
  | dotMatchesLineFeed
  | swapGreed
  | unicode
  | carriageReturns
  | spaced
  deriving DecidableEq

/-- An absent flag stands for the sign that negates the flags after it. -/
structure FlagItem where
  span : Span
  flag : Option Flag

/-- Whether a flag is set or cleared, if it is mentioned. -/
def flagState (flag : Flag) (negated : Bool) : List FlagItem → Option Bool
  | [] => none
  | item :: items =>
      match item.flag with
      | none => flagState flag true items
      | some other => if other = flag then some !negated else flagState flag negated items

/-! ## Sets -/

/-- The field `isByte` tells a character that is written by two hexadecimal digits. -/
structure Literal where
  span : Span
  character : Char
  isByte : Bool := false

inductive Shorthand where
  | digit
  | space
  | word
  deriving DecidableEq

inductive NamedSet where
  | alnum
  | alpha
  | ascii
  | blank
  | cntrl
  | digit
  | graph
  | lower
  | print
  | punct
  | space
  | upper
  | word
  | xdigit
  deriving DecidableEq

def NamedSet.all : List (String × NamedSet) :=
  [("alnum", alnum), ("alpha", alpha), ("ascii", ascii), ("blank", blank), ("cntrl", cntrl),
    ("digit", digit), ("graph", graph), ("lower", lower), ("print", print), ("punct", punct),
    ("space", space), ("upper", upper), ("word", word), ("xdigit", xdigit)]

inductive SetOperator where
  | intersection
  | difference
  | symmetricDifference
  deriving DecidableEq

/-- An expression for one character out of a set. -/
inductive SetExpression where
  | empty (span : Span)
  | literal (literal : Literal)
  | range (first last : Literal)
  | named (span : Span) (set : NamedSet) (negated : Bool)
  | shorthand (span : Span) (kind : Shorthand) (negated : Bool)
  | property (span : Span) (name : List Char)
  | bracketed (span : Span) (negated : Bool) (set : SetExpression)
  | union (span : Span) (items : List SetExpression)
  | operation (span : Span) (operator : SetOperator) (left right : SetExpression)

def SetExpression.span : SetExpression → Span
  | empty span => span
  | literal character => character.span
  | range first last => ⟨first.span.first, last.span.past⟩
  | named span _ _ => span
  | shorthand span _ _ => span
  | property span _ => span
  | bracketed span _ _ => span
  | union span _ => span
  | operation span _ _ _ => span

/-! ## Expressions -/

inductive Anchor where
  | lineStart
  | lineEnd
  | textStart
  | textEnd
  | word (place : WordPlace)
  deriving DecidableEq

inductive Expression where
  | empty (span : Span)
  | one (set : SetExpression)
  | dot (span : Span)
  | anchor (span : Span) (kind : Anchor)
  | flags (span : Span) (items : List FlagItem)
  | group (span : Span) (isCaptured : Bool) (flags : List FlagItem) (body : Expression)
  /-- A lazy repetition prefers fewer rounds. -/
  | repeated (span : Span) (body : Expression) (least : Nat) (most : Option Nat) (isLazy : Bool)
  | concatenation (span : Span) (items : List Expression)
  | alternatives (span : Span) (branches : List Expression)

def Expression.span : Expression → Span
  | empty span => span
  | one set => set.span
  | dot span => span
  | anchor span _ => span
  | flags span _ => span
  | group span _ _ _ => span
  | repeated span _ _ _ _ => span
  | concatenation span _ => span
  | alternatives span _ => span

/-! ## Nesting

The depth of an expression is limited. The flaw is marked at the part that lies
too deep. -/

def nestingLimit : Nat := 250

def checkDepth (depth : Nat) (span : Span) : Except Flaw Unit :=
  if nestingLimit < depth then
    .error { reason := .nestingTooDeep nestingLimit, span }
  else
    .ok ()

mutual

def SetExpression.checkNesting (depth : Nat) : SetExpression → Except Flaw Unit
  | .bracketed span _ set => do
      checkDepth (depth + 1) span
      set.checkNesting (depth + 1)
  | .union span items => do
      checkDepth (depth + 1) span
      checkItemsNesting (depth + 1) items
  | .operation span _ left right => do
      checkDepth (depth + 1) span
      left.checkNesting (depth + 1)
      right.checkNesting (depth + 1)
  | .empty _ => .ok ()
  | .literal _ => .ok ()
  | .range _ _ => .ok ()
  | .named _ _ _ => .ok ()
  | .shorthand _ _ _ => .ok ()
  | .property _ _ => .ok ()

def checkItemsNesting (depth : Nat) : List SetExpression → Except Flaw Unit
  | [] => .ok ()
  | item :: items => do
      item.checkNesting depth
      checkItemsNesting depth items

end

mutual

def Expression.checkNesting (depth : Nat) : Expression → Except Flaw Unit
  | .one set => set.checkNesting depth
  | .group span _ _ body => do
      checkDepth (depth + 1) span
      body.checkNesting (depth + 1)
  | .repeated span body _ _ _ => do
      checkDepth (depth + 1) span
      body.checkNesting (depth + 1)
  | .concatenation span items => do
      checkDepth (depth + 1) span
      checkAllNesting (depth + 1) items
  | .alternatives span branches => do
      checkDepth (depth + 1) span
      checkAllNesting (depth + 1) branches
  | .empty _ => .ok ()
  | .dot _ => .ok ()
  | .anchor _ _ => .ok ()
  | .flags _ _ => .ok ()

def checkAllNesting (depth : Nat) : List Expression → Except Flaw Unit
  | [] => .ok ()
  | item :: items => do
      item.checkNesting depth
      checkAllNesting depth items

end

end Deduction.Pattern
