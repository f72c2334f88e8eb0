import Deduction.Proof
import Deduction.Schema

/-! # Faults

The reasons for which an operation of the kernel is refused, and how they are
worded. -/

namespace Deduction

/-- Why a value was not bound, or a bound schema not settled. -/
inductive BindingFlaw where
  | notRemaining
  | wrongKind (expected : ArgumentKind) (value : Argument)
  | partsUnbound
  | parameterUnbound
  | objectExpected
  | setExpected
  | noParameters

def BindingFlaw.reason : BindingFlaw → String
  | notRemaining => "not a remaining parameter"
  | wrongKind expected value =>
      "expected " ++ expected.text ++ ", found " ++ value.kind.text ++ " " ++ value.text
  | partsUnbound => "parameters remain unbound"
  | parameterUnbound => "parameter remains unbound"
  | objectExpected => "object expected"
  | setExpected => "set expected"
  | noParameters => "proposition takes no arguments"

inductive Fault where
  /-- A parameter cannot be bound, or cannot remain as it is. -/
  | kindMismatch (schema : Schema) (parameter : String) (flaw : BindingFlaw)
  /-- A parameter was bound before the parameters it depends on. -/
  | outOfOrderBinding (schema : Schema) (parameter : String)
  /-- A rule was applied to proofs of another shape than it requires. -/
  | preconditionFailed (rule : Rule) (expected found : String)
  | notMember (element : Object) (set : Collection)
  /-- An ordering was judged between objects that are not numerals. -/
  | notComparable (left right : Object)
  /-- An ordering was judged between numerals for which it is false. -/
  | relationFalse (statement : Proposition)
  /-- The set restricting a bound variable has ceased to exist. -/
  | droppedDomain (bound : Object)
  /-- A reduction was used as a proof without having been asserted. -/
  | notPostulated (text : String)
  | notIterable (set : Collection)
  | notFunction (set : Collection)
  | notExtensible (set : Collection)
  /-- An object outside of the number sets was added or subtracted. -/
  | noArithmetic (x : Object)

def Fault.message : Fault → String
  | kindMismatch schema parameter flaw =>
      "predicate `" ++ schema.text ++ "`: cannot bind `" ++ parameter ++ "`: " ++ flaw.reason
  | outOfOrderBinding schema parameter =>
      "predicate `" ++ schema.text ++ "`: `" ++ parameter ++ "` can only be bound last (" ++
        toString schema.arity ++ " parameters remain)"
  | preconditionFailed rule expected found =>
      rule.name ++ ": expected " ++ expected ++ ", found " ++ found
  | notMember element set => element.text ++ " is not an element of " ++ set.name
  | notComparable left right =>
      "cannot compare " ++ left.text ++ " and " ++ right.text ++ ": not numeric literals"
  | relationFalse statement => statement.text ++ " does not hold"
  | droppedDomain bound => "the set restricting " ++ bound.text ++ " no longer exists"
  | notPostulated text => text ++ " is not an axiom"
  | notIterable set => "set " ++ set.name ++ " cannot be iterated"
  | notFunction set => "set " ++ set.name ++ " is not a function"
  | notExtensible set => "cannot add elements to set " ++ set.name
  | noArithmetic x => "no arithmetic known for " ++ x.text

end Deduction
