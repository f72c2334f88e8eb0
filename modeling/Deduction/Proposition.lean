import Deduction.Collection

/-! # Propositions

A proposition describes a statement; that it holds is the matter of a proof.
Two propositions are equal if they have the same structure, where objects are
compared by their keys and sets by their names. -/

namespace Deduction

/-! ## Arguments -/

/-- The kind of value that an argument place accepts. -/
inductive ArgumentKind where
  | object
  | set
  deriving DecidableEq

def ArgumentKind.text : ArgumentKind → String
  | object => "object"
  | set => "set"

inductive Argument where
  | object (x : Object)
  | set (s : Collection)

namespace Argument

def kind : Argument → ArgumentKind
  | object _ => .object
  | set _ => .set

def text : Argument → String
  | object x => x.text
  | set s => s.name

def agrees (left right : Argument) : Bool :=
  match left, right with
  | object x, object y => x == y
  | set s, set t => s == t
  | _, _ => false

instance : BEq Argument where
  beq := Argument.agrees

def isObject (argument : Argument) (x : Object) : Bool :=
  match argument with
  | object y => y == x
  | set _ => false

def mentioned : Argument → List SetId
  | object _ => []
  | set s => [s.id]

end Argument

/-! ## Connectives and quantifiers -/

inductive Connective where
  | implies
  | and
  | or
  | equivalent
  deriving DecidableEq

def Connective.word : Connective → String
  | implies => "Implies"
  | and => "And"
  | or => "Or"
  | equivalent => "Equiv"

inductive Quantifier where
  | universal
  | existential
  deriving DecidableEq

def Quantifier.symbol : Quantifier → String
  | universal => "∀"
  | existential => "∃"

/-! ## Propositions -/

inductive Proposition where
  | atom (name : String) (arguments : List Argument)
  | falsum
  | binary (left : Proposition) (connective : Connective) (right : Proposition)
  | quantified (quantifier : Quantifier) (bound : Object) (body : Proposition)
  | member (element : Object) (set : Collection)
  | ordered (left : Object) (relation : Relation) (right : Object)

namespace Proposition

/-- Structural equality up to the keys of objects and the names of sets. -/
def agrees : Proposition → Proposition → Bool
  | atom name arguments, atom name' arguments' => name == name' && arguments == arguments'
  | falsum, falsum => true
  | binary left connective right, binary left' connective' right' =>
      connective == connective' && left.agrees left' && right.agrees right'
  | quantified quantifier bound body, quantified quantifier' bound' body' =>
      quantifier == quantifier' && bound == bound' && body.agrees body'
  | member element set, member element' set' => element == element' && set == set'
  | ordered left relation right, ordered left' relation' right' =>
      relation == relation' && left == left' && right == right'
  | _, _ => false

instance : BEq Proposition where
  beq := Proposition.agrees

def implies (antecedent consequent : Proposition) : Proposition :=
  binary antecedent .implies consequent

def and (left right : Proposition) : Proposition :=
  binary left .and right

def or (left right : Proposition) : Proposition :=
  binary left .or right

def equivalent (left right : Proposition) : Proposition :=
  binary left .equivalent right

/-- The negation of `p` is the implication of the contradiction by `p`, except
that the negation of a negation is the negated proposition itself. -/
def not : Proposition → Proposition
  | binary p .implies falsum => p
  | p => binary p .implies falsum

/-! ## Parts -/

def operands (connective : Connective) : Proposition → Option (Proposition × Proposition)
  | binary left connective' right =>
      if connective' = connective then some (left, right) else none
  | _ => none

/-- The proposition `p` of which this is the negation `Implies(p, ⊥)`. -/
def negated : Proposition → Option Proposition
  | binary p .implies falsum => some p
  | _ => none

def quantification : Proposition → Option (Quantifier × Object × Proposition)
  | quantified quantifier bound body => some (quantifier, bound, body)
  | _ => none

/-- Holds if the object occurs free. -/
def occurs (x : Object) : Proposition → Bool
  | atom _ arguments => arguments.any (·.isObject x)
  | falsum => false
  | binary left _ right => left.occurs x || right.occurs x
  | quantified _ bound body => !(bound == x) && body.occurs x
  | member element _ => element == x
  | ordered left _ right => left == x || right == x

/-- The sets that a proposition speaks about and thereby keeps in existence. -/
def mentioned : Proposition → List SetId
  | atom _ arguments => arguments.flatMap Argument.mentioned
  | falsum => []
  | binary left _ right => left.mentioned ++ right.mentioned
  | quantified _ _ body => body.mentioned
  | member _ set => [set.id]
  | ordered _ _ _ => []

/-! ## Text -/

def text : Proposition → String
  | atom name arguments => name ++ argumentText (arguments.map Argument.text)
  | falsum => "⊥"
  | binary p .implies falsum => "¬" ++ p.text
  | binary left connective right =>
      connective.word ++ "(" ++ left.text ++ ", " ++ right.text ++ ")"
  | quantified quantifier bound body =>
      quantifier.symbol ++ bound.text ++ ", " ++ body.text
  | member element set => element.text ++ " ∈ " ++ set.name
  | ordered left relation right =>
      left.text ++ " " ++ relation.symbol ++ " " ++ right.text

end Proposition

end Deduction
