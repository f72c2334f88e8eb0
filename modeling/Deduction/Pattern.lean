import Deduction.Pattern.Assertion
import Deduction.Pattern.CharacterSet

/-! # Patterns

Regular expressions over characters, with assertions about the place that is
reached. The parts of a pattern are joined as far as possible: there are no
sequences within sequences and no alternatives within alternatives, and
neighbouring characters stand together. -/

namespace Deduction

inductive Pattern where
  | empty
  | literal (characters : List Char)
  /-- The set may be meant as one of bytes. -/
  | one (set : CharacterSet) (ofBytes : Bool)
  /-- The words spoken of may be those of all scripts. -/
  | assertion (kind : Assertion) (ofAllScripts : Bool)
  | repeated (body : Pattern) (least : Nat) (most : Option Nat) (isLazy : Bool)
  | captured (place : Nat) (body : Pattern)
  | sequence (parts : List Pattern)
  | either (branches : List Pattern)

namespace Pattern

/-! ## Equality -/

mutual

def agrees : Pattern → Pattern → Bool
  | .empty, .empty => true
  | .literal characters, .literal characters' => characters == characters'
  | .one set ofBytes, .one set' ofBytes' => set == set' && ofBytes == ofBytes'
  | .assertion kind scripts, .assertion kind' scripts' => kind == kind' && scripts == scripts'
  | .repeated body least most isLazy, .repeated body' least' most' isLazy' =>
      least == least' && most == most' && isLazy == isLazy' && agrees body body'
  | .captured place body, .captured place' body' => place == place' && agrees body body'
  | .sequence parts, .sequence parts' => allAgree parts parts'
  | .either branches, .either branches' => allAgree branches branches'
  | _, _ => false

def allAgree : List Pattern → List Pattern → Bool
  | [], [] => true
  | head :: tail, head' :: tail' => agrees head head' && allAgree tail tail'
  | _, _ => false

end

/-! ## Lengths

Lengths are counted in bytes. A set without characters has no length at all, nor
has a pattern that contains it. -/

def codeLength (code : Nat) : Nat :=
  if code < 0x80 then 1 else if code < 0x800 then 2 else if code < 0x10000 then 3 else 4

def literalLength (characters : List Char) : Nat :=
  characters.foldl (fun length c => length + c.utf8Size) 0

mutual

def minimumLength : Pattern → Option Nat
  | .empty => some 0
  | .literal characters => some (literalLength characters)
  | .one set _ => set.ranges.head?.map fun range => codeLength range.1
  | .assertion _ _ => some 0
  | .repeated body least _ _ => (minimumLength body).map (least * ·)
  | .captured _ body => minimumLength body
  | .sequence parts => minimumSum parts
  | .either branches => minimumOfAll branches

def minimumSum : List Pattern → Option Nat
  | [] => some 0
  | part :: parts => do return (← minimumLength part) + (← minimumSum parts)

def minimumOfAll : List Pattern → Option Nat
  | [] => none
  | [branch] => minimumLength branch
  | branch :: branches => do return min (← minimumLength branch) (← minimumOfAll branches)

end

mutual

/-- An unbounded pattern has no maximal length either. -/
def maximumLength : Pattern → Option Nat
  | .empty => some 0
  | .literal characters => some (literalLength characters)
  | .one set _ => set.ranges.getLast?.map fun range => codeLength range.2
  | .assertion _ _ => some 0
  | .repeated body _ most _ => do return (← most) * (← maximumLength body)
  | .captured _ body => maximumLength body
  | .sequence parts => maximumSum parts
  | .either branches => maximumOfAll branches

def maximumSum : List Pattern → Option Nat
  | [] => some 0
  | part :: parts => do return (← maximumLength part) + (← maximumSum parts)

def maximumOfAll : List Pattern → Option Nat
  | [] => none
  | [branch] => maximumLength branch
  | branch :: branches => do return max (← maximumLength branch) (← maximumOfAll branches)

end

/-! ## Joining -/

/-- All sets without characters are the same. -/
def ofSet (set : CharacterSet) (ofBytes : Bool) : Pattern :=
  match set.only? with
  | some c => .literal [c]
  | none => .one set (ofBytes || set.ranges.isEmpty)

/-- Repeating what matches only the empty text is the same as trying it once. -/
def repeating (body : Pattern) (least : Nat) (most : Option Nat) (isLazy : Bool) : Pattern :=
  let isEmpty := body.maximumLength = some 0
  let least := if isEmpty then min least 1 else least
  let most := if isEmpty then some (min (most.getD 1) 1) else most
  if least = 0 ∧ most = some 0 then .empty
  else if least = 1 ∧ most = some 1 then body
  else .repeated body least most isLazy

def joinLiterals : List Pattern → List Pattern
  | [] => []
  | part :: parts =>
      match part, joinLiterals parts with
      | .literal characters, .literal others :: rest => .literal (characters ++ others) :: rest
      | part, rest => part :: rest

def flatParts : Pattern → List Pattern
  | .empty => []
  | .sequence parts => parts
  | part => [part]

def inSequence (parts : List Pattern) : Pattern :=
  match joinLiterals (parts.flatMap flatParts) with
  | [] => .empty
  | [part] => part
  | parts => .sequence parts

def flatBranches : Pattern → List Pattern
  | .either branches => branches
  | branch => [branch]

/-- The only character that a pattern matches. -/
def character? : Pattern → Option Char
  | .literal [c] => some c
  | _ => none

def set? : Pattern → Option CharacterSet
  | .one set _ => some set
  | _ => none

/-- The parts of a pattern that is a sequence. -/
def parts? : Pattern → Option (List Pattern)
  | .sequence parts => some parts
  | _ => none

/-- The parts that two sequences begin with alike. -/
def commonParts : List Pattern → List Pattern → List Pattern
  | pattern :: patterns, pattern' :: patterns' =>
      if pattern.agrees pattern' then pattern :: commonParts patterns patterns' else []
  | _, _ => []

mutual

def nodeCount : Pattern → Nat
  | .empty => 1
  | .literal _ => 1
  | .one _ _ => 1
  | .assertion _ _ => 1
  | .repeated body _ _ _ => nodeCount body + 1
  | .captured _ body => nodeCount body + 1
  | .sequence parts => nodeCountOfAll parts + 1
  | .either branches => nodeCountOfAll branches + 1

def nodeCountOfAll : List Pattern → Nat
  | [] => 0
  | pattern :: patterns => nodeCount pattern + nodeCountOfAll patterns

end

/-- Alternatives. Characters and sets join to a set, and what all sequences begin
with alike stands before the alternatives. The rounds bound how often that may
happen. -/
def joinBranches : Nat → List Pattern → Pattern
  | 0, branches => .either branches
  | rounds + 1, branches =>
      match branches.flatMap flatBranches with
      | [] => .ofSet .empty true
      | [branch] => branch
      | first :: others =>
          let branches := first :: others
          match branches.mapM character?, branches.mapM set?, branches.mapM parts? with
          | some characters, _, _ =>
              ofSet (.ofRanges (characters.map fun c => (c, c))) false
          | none, some sets, _ => ofSet (.ofCodes (sets.flatMap (·.ranges))) false
          | none, none, some (parts :: sequences) =>
              let common := sequences.foldl commonParts parts
              if common.isEmpty then
                .either branches
              else
                let rests := (parts :: sequences).map fun parts =>
                  inSequence (parts.drop common.length)
                inSequence (common ++ [joinBranches rounds rests])
          | none, none, _ => .either branches

def anyOf (branches : List Pattern) : Pattern :=
  joinBranches (nodeCountOfAll branches + 1) branches

/-! ## Anchoring

A pattern is anchored if it can match only at one end of the text. -/

mutual

def isAnchoredAtStart : Pattern → Bool
  | .assertion kind _ => kind = .textStart
  | .repeated body least _ _ => 0 < least && isAnchoredAtStart body
  | .captured _ body => isAnchoredAtStart body
  | .sequence parts => beginsAnchored parts
  | .either branches => allAnchoredAtStart branches
  | .empty => false
  | .literal _ => false
  | .one _ _ => false

/-- An anchor counts if only what has no length stands before it. -/
def beginsAnchored : List Pattern → Bool
  | [] => false
  | part :: parts =>
      isAnchoredAtStart part || (part.maximumLength = some 0 && beginsAnchored parts)

def allAnchoredAtStart : List Pattern → Bool
  | [] => true
  | branch :: branches => isAnchoredAtStart branch && allAnchoredAtStart branches

end

mutual

def isAnchoredAtEnd : Pattern → Bool
  | .assertion kind _ => kind = .textEnd
  | .repeated body least _ _ => 0 < least && isAnchoredAtEnd body
  | .captured _ body => isAnchoredAtEnd body
  | .sequence parts => endsAnchored parts
  | .either branches => allAnchoredAtEnd branches
  | .empty => false
  | .literal _ => false
  | .one _ _ => false

def endsAnchored : List Pattern → Bool
  | [] => false
  | part :: parts =>
      endsAnchored parts || (isAnchoredAtEnd part && maximumSum parts = some 0)

def allAnchoredAtEnd : List Pattern → Bool
  | [] => true
  | branch :: branches => isAnchoredAtEnd branch && allAnchoredAtEnd branches

end

/-! ## Words of all scripts -/

mutual

def asksForAllScripts : Pattern → Bool
  | .assertion _ ofAllScripts => ofAllScripts
  | .repeated body _ _ _ => asksForAllScripts body
  | .captured _ body => asksForAllScripts body
  | .sequence parts => anyAsksForAllScripts parts
  | .either branches => anyAsksForAllScripts branches
  | .empty => false
  | .literal _ => false
  | .one _ _ => false

def anyAsksForAllScripts : List Pattern → Bool
  | [] => false
  | pattern :: patterns => asksForAllScripts pattern || anyAsksForAllScripts patterns

end

end Pattern

end Deduction
