import Deduction.Enumeration
import Deduction.Inference.Judgment
import Deduction.Inference.Quantifier
import Deduction.Schema.Application

/-! # Commands

What a session can be asked to do. Operands refer to variables of the session or
describe objects and propositions that are made when the operand is evaluated.
An operand that could not be read is kept as such, so that it is refused only
when its turn comes. -/

namespace Deduction.Session

/-! ## Operands -/

/-- The name of a variable, if one could be read. -/
abbrev VariableName := Option String

inductive ObjectOperand where
  | named (variableName : String)
  | created (name : String)
  | createdIn (name : String) (set : VariableName)
  | unreadable

inductive PropositionOperand where
  | named (variableName : String)
  | atom (name : String) (arguments : List ObjectOperand)
  | falsum
  | not (p : PropositionOperand)
  | binary (left : PropositionOperand) (connective : Connective) (right : PropositionOperand)
  | quantified (quantifier : Quantifier) (bound : ObjectOperand) (body : PropositionOperand)
  | member (element : ObjectOperand) (set : VariableName)
  | ordered (left : ObjectOperand) (relation : Option Relation) (right : ObjectOperand)
  | unreadable

inductive MappingOperand where
  | onDemand
  | plus (summand : ObjectOperand)
  | minus (subtrahend : ObjectOperand)
  | constant (value : ObjectOperand)
  | identity
  | pair
  | compose (outer inner : VariableName)
  | unreadable

/-- The parts of a composite schema are propositions, schemas or reductions. -/
inductive SchemaOperand where
  | generic (parameters : List (String × ArgumentKind))
  | membership
  | ordering (relation : Relation)
  | subset
  | combine (left : PropositionOperand) (connective : Option Connective)
      (right : PropositionOperand)
  | quantify (quantifier : Quantifier) (variableName : String) (inner : PropositionOperand)
  | unreadable

/-- A binding of a parameter may be absent, and it may be unreadable as a whole. -/
abbrev BindingOperands := List (Option (String × Option ObjectOperand))

/-! ## Rules by their operands -/

inductive TwoPremiseRule where
  | modusPonens
  | hypotheticalSyllogism
  | modusTollens
  | contradiction
  | conjunction
  | equivalenceIntroduction
  | quantifiedModusPonens

def TwoPremiseRule.derive : TwoPremiseRule → Proof → Proof → Kernel Proof
  | modusPonens => Kernel.modusPonens
  | hypotheticalSyllogism => Kernel.hypotheticalSyllogism
  | modusTollens => Kernel.modusTollens
  | contradiction => Kernel.contradiction
  | conjunction => Kernel.conjunction
  | equivalenceIntroduction => Kernel.equivalenceIntroduction
  | quantifiedModusPonens => Kernel.quantifiedModusPonens

inductive OnePremiseRule where
  | andLeft
  | andRight
  | commuteAnd
  | commuteOr
  | implicationToOr
  | orToImplication

def OnePremiseRule.derive : OnePremiseRule → Proof → Kernel Proof
  | andLeft => Kernel.andLeft
  | andRight => Kernel.andRight
  | commuteAnd => Kernel.commuteAnd
  | commuteOr => Kernel.commuteOr
  | implicationToOr => Kernel.implicationToOr
  | orToImplication => Kernel.orToImplication

/-- The rules that also take a proposition. -/
inductive ExtendingRule where
  | disjunction
  | explosion

def ExtendingRule.derive : ExtendingRule → Proof → Proposition → Kernel Proof
  | disjunction => Kernel.disjunction
  | explosion => Kernel.explosion

/-- The rules that take a proposition only. -/
inductive StatementRule where
  | excludedMiddle
  | nonContradiction
  | trivial
  | membership
  | ordering

def StatementRule.derive : StatementRule → Proposition → Kernel Proof
  | excludedMiddle => Kernel.excludedMiddle
  | nonContradiction => Kernel.nonContradiction
  | trivial => Kernel.trivial
  | membership => Kernel.proveMembership
  | ordering => Kernel.proveOrdering

/-! ## Commands -/

inductive Command where
  | object (name : String)
  | objectIn (name : String) (set : VariableName)
  | tuple (components : List ObjectOperand)
  | calculate (operation : Kernel.Operation) (x y : ObjectOperand)
  | compareObjects (x y : ObjectOperand)
  | plainSet (name : String)
  | productSet (factors : List VariableName) (name : String)
  | functionSet (domain range : VariableName) (name : String) (mapping : MappingOperand)
  | numberSets (naturals rationals reals : VariableName)
  | literal (naturals rationals reals : VariableName) (name : String)
  | contains (set : VariableName) (x : ObjectOperand)
  | includes (larger smaller : VariableName)
  | compareSets (left right : VariableName)
  | insert (set : VariableName) (x : ObjectOperand)
  | enumerate (set : VariableName)
  | next (cursor : VariableName) (count : Nat)
  | apply (function : VariableName) (x : ObjectOperand)
  | proposition (p : PropositionOperand)
  | comparePropositions (left right : PropositionOperand)
  | substitute (p : PropositionOperand) (old new : ObjectOperand)
  | occurs (p : PropositionOperand) (x : ObjectOperand)
  | negated (p : PropositionOperand)
  | operands (p : PropositionOperand) (connective : Option Connective)
  | quantification (p : PropositionOperand)
  | document (item : VariableName)
  | schema (name : String) (operand : SchemaOperand)
  | applySchema (bindings : BindingOperands) (schema : VariableName) (assert : Bool)
  | instantiate (bindings : BindingOperands) (schema : VariableName)
  | assume (bindings : BindingOperands) (schema : VariableName)
  | assertedProof (reduction : VariableName)
  | reducedStatement (reduction : VariableName)
  | reducedSchema (reduction : VariableName)
  | boundValue (schema : VariableName) (parameter : String)
  | postulate (p : PropositionOperand)
  | fromTwo (rule : TwoPremiseRule) (a b : VariableName)
  | fromOne (rule : OnePremiseRule) (a : VariableName)
  | extending (rule : ExtendingRule) (a : VariableName) (p : PropositionOperand)
  | stating (rule : StatementRule) (p : PropositionOperand)
  | equivalenceElimination (a : VariableName)
  | existentialResolution (a : VariableName)
  | universalResolution (a : VariableName) (y : ObjectOperand)
  | existentialIntroduction (a : VariableName) (y x : ObjectOperand)
  | premise (a : VariableName) (index : Nat)
  | tree (a : VariableName)
  | compareProofs (left right : VariableName)
  | info (item : VariableName)
  | drop (item : VariableName)
  | unreadable

/-- A command with the variables that are to hold its results. -/
structure Instruction where
  command : Command
  first : VariableName
  second : VariableName

end Deduction.Session
