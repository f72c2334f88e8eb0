import Deduction.Inference.Propositional

/-! # Quantifier rules

A variable that belongs to a set ranges over that set. What replaces it must be
an element of the set, and a variable that replaces it must belong to the set or
to one it includes. -/

namespace Deduction

namespace Inference

/-- The variable and body of a premise, which must have the given quantifier. -/
def quantification (rule : Rule) (quantifier : Quantifier) (premise : Proposition) :
    Except Fault (Object × Proposition) :=
  match premise with
  | .quantified quantifier' bound body =>
      if quantifier' = quantifier then
        .ok (bound, body)
      else
        .error (.preconditionFailed rule (quantifier.symbol ++ "x, _") premise.text)
  | _ => .error (.preconditionFailed rule (quantifier.symbol ++ "x, _") premise.text)

/-- The variable must not occur free in the premise, unless it is the one that
it replaces. -/
def notFree (rule : Rule) (bound replaced : Object) (premise : Proposition) :
    Except Fault Unit :=
  if !(bound == replaced) && premise.occurs bound then
    .error (.preconditionFailed rule
      ("proposition without free " ++ bound.text) premise.text)
  else
    .ok ()

end Inference

namespace Kernel

/-- From `∀x, P(x)`, conclude `P(y)`. -/
def universalResolution (all : Proof) (y : Object) : Kernel Proof := do
  let (x, body) ← liftExcept
    (Inference.quantification .universalResolution .universal all.conclusion)
  match ← domain x with
  | some set =>
      if (← get).contains set y then
        certify (← substitute body x y) .universalResolution [all]
      else
        throw (.notMember y set)
  | none => certify (← substitute body x y) .universalResolution [all]

/-- From `∃x, P(x)`, obtain a new witness `w`, which belongs to the same set as
`x`, and conclude `P(w)`. -/
def existentialResolution (existence : Proof) : Kernel (Object × Proof) := do
  let (x, body) ← liftExcept
    (Inference.quantification .existentialResolution .existential existence.conclusion)
  let set ← domain x
  let witness ← create "" (set.map Collection.id) []
  let proof ← certify (← substitute body x witness) .existentialResolution [existence]
  return (witness, proof)

/-- From `P(y)`, conclude `∃x, P(x)`. -/
def existentialIntroduction (instanceProof : Proof) (y x : Object) : Kernel Proof := do
  liftExcept (Inference.notFree .existentialIntroduction x y instanceProof.conclusion)
  let body ← substitute instanceProof.conclusion y x
  certify (.quantified .existential x body) .existentialIntroduction [instanceProof]

/-- The set of the variable `x`, if there is one, must include that of `y`. -/
def restrict (rule : Rule) (x y : Object) : Kernel Unit := do
  match ← domain x with
  | none => return
  | some outer =>
      let refusal := Fault.preconditionFailed rule ("variable in " ++ outer.name) y.text
      match ← domain y with
      | some inner => if outer.includes inner then return else throw refusal
      | none => throw refusal

/-- From `∀x, A(x) ⇒ B(x)` and `Qy, A(y)`, conclude `Qy, B(y)` for either
quantifier `Q`. -/
def quantifiedModusPonens (all premise : Proof) : Kernel Proof := do
  let rule := Rule.quantifiedModusPonens
  let (x, implication) ← liftExcept
    (Inference.quantification rule .universal all.conclusion)
  match premise.conclusion with
  | .quantified quantifier y a =>
      liftExcept (Inference.notFree rule y x all.conclusion)
      restrict rule x y
      match (← substitute implication x y).operands .implies with
      | some (antecedent, consequent) =>
          liftExcept (Inference.agree rule antecedent a)
          certify (.quantified quantifier y consequent) rule [all, premise]
      | none =>
          throw (.preconditionFailed rule "∀x, Implies(_, _)" all.conclusion.text)
  | other => throw (.preconditionFailed rule "∀x, _ or ∃x, _" other.text)

end Kernel

end Deduction
