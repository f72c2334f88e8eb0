import Deduction.Kernel

/-! # Judgments

Memberships and orderings of numerals are decided rather than derived. -/

namespace Deduction

/-- The truth of an ordering, or nothing unless both objects are numerals. -/
def Relation.evaluate (relation : Relation) (x y : Object) : Option Bool :=
  match Numeral.read x.name, Numeral.read y.name with
  | some a, some b => some (relation.holds a b)
  | _, _ => none

/-- Holds if both objects are numerals between which the relation holds. -/
def Relation.compare (relation : Relation) (x y : Object) : Bool :=
  (relation.evaluate x y).getD false

namespace Inference

/-- Refuses an ordering that does not hold or cannot be decided. -/
def judgeOrdering (statement : Proposition) : Except Fault Unit :=
  match statement with
  | .ordered x relation y =>
      match relation.evaluate x y with
      | some true => .ok ()
      | some false => .error (.relationFalse statement)
      | none => .error (.notComparable x y)
  | _ => .error (.preconditionFailed .ordering "x rel y" statement.text)

/-- Refuses a membership that does not hold in the given store. -/
def judgeMembership (store : Store) (statement : Proposition) : Except Fault Unit :=
  match statement with
  | .member x set => if store.contains set x then .ok () else .error (.notMember x set)
  | _ => .error (.preconditionFailed .membership "x ∈ S" statement.text)

end Inference

namespace Kernel

def proveMembership (statement : Proposition) : Kernel Proof := do
  liftExcept (Inference.judgeMembership (← get) statement)
  certify statement .membership []

def proveOrdering (statement : Proposition) : Kernel Proof := do
  liftExcept (Inference.judgeOrdering statement)
  certify statement .ordering []

end Kernel

end Deduction
