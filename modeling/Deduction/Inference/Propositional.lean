import Deduction.Kernel

/-! # Propositional rules

Each rule first says, on propositions alone, what is concluded from what, or
why nothing is. The proofs it issues record exactly the premises it used. -/

namespace Deduction

/-! ## Shapes -/

def Connective.shape (connective : Connective) : String :=
  connective.word ++ "(_, _)"

namespace Inference

/-- The operands of a premise, which must be formed by the given connective. -/
def operands (rule : Rule) (connective : Connective) (premise : Proposition) :
    Except Fault (Proposition × Proposition) :=
  match premise.operands connective with
  | some parts => .ok parts
  | none => .error (.preconditionFailed rule connective.shape premise.text)

/-- The given proposition must be equal to the expected one. -/
def agree (rule : Rule) (expected found : Proposition) : Except Fault Unit :=
  if expected == found then
    .ok ()
  else
    .error (.preconditionFailed rule expected.text found.text)

/-- Holds if one of the propositions negates the other. A negation may be given
in the collapsed form or as the implication of the contradiction. -/
def contradicts (p denial : Proposition) : Bool :=
  denial == p.not ||
    match denial.negated with
    | some q => q == p
    | none => false

def denied (rule : Rule) (p denial : Proposition) : Except Fault Unit :=
  if contradicts p denial then
    .ok ()
  else
    .error (.preconditionFailed rule p.not.text denial.text)

/-! ## Conclusions -/

/-- From `A ⇒ B` and `A`, conclude `B`. -/
def modusPonens (ab a : Proposition) : Except Fault Proposition := do
  let (antecedent, consequent) ← operands .modusPonens .implies ab
  agree .modusPonens antecedent a
  return consequent

/-- From `A ⇒ B` and `B ⇒ C`, conclude `A ⇒ C`. -/
def hypotheticalSyllogism (ab bc : Proposition) : Except Fault Proposition := do
  let (a, b) ← operands .hypotheticalSyllogism .implies ab
  let (b', c) ← operands .hypotheticalSyllogism .implies bc
  agree .hypotheticalSyllogism b b'
  return a.implies c

/-- From `A ⇒ B` and `¬B`, conclude `¬A`. -/
def modusTollens (ab denial : Proposition) : Except Fault Proposition := do
  let (a, b) ← operands .modusTollens .implies ab
  denied .modusTollens b denial
  return a.not

/-- From `A` and `¬A`, conclude `⊥`. -/
def contradiction (a denial : Proposition) : Except Fault Proposition := do
  denied .contradiction a denial
  return .falsum

/-- From `A ∧ B`, conclude `A`. -/
def andLeft (ab : Proposition) : Except Fault Proposition := do
  let (a, _) ← operands .andLeft .and ab
  return a

/-- From `A ∧ B`, conclude `B`. -/
def andRight (ab : Proposition) : Except Fault Proposition := do
  let (_, b) ← operands .andRight .and ab
  return b

def commuteAnd (ab : Proposition) : Except Fault Proposition := do
  let (a, b) ← operands .commuteAnd .and ab
  return b.and a

def commuteOr (ab : Proposition) : Except Fault Proposition := do
  let (a, b) ← operands .commuteOr .or ab
  return b.or a

/-- From `A ⇒ B` and `B ⇒ A`, conclude `A ⇔ B`. -/
def equivalenceIntroduction (ab ba : Proposition) : Except Fault Proposition := do
  let (a, b) ← operands .equivalenceIntroduction .implies ab
  let (b', a') ← operands .equivalenceIntroduction .implies ba
  if a == a' && b == b' then
    return a.equivalent b
  else
    throw (.preconditionFailed .equivalenceIntroduction (b.implies a).text ba.text)

/-- From `A ⇔ B`, conclude `A ⇒ B` and `B ⇒ A`. -/
def equivalenceElimination (equivalence : Proposition) :
    Except Fault (Proposition × Proposition) := do
  let (a, b) ← operands .equivalenceElimination .equivalent equivalence
  return (a.implies b, b.implies a)

/-- From `A ⇒ B`, conclude `¬A ∨ B`. -/
def implicationToOr (ab : Proposition) : Except Fault Proposition := do
  let (a, b) ← operands .implicationToOr .implies ab
  return a.not.or b

/-- From `A ∨ B`, conclude `¬A ⇒ B`. -/
def orToImplication (ab : Proposition) : Except Fault Proposition := do
  let (a, b) ← operands .orToImplication .or ab
  return a.not.implies b

/-- From `⊥`, conclude anything. -/
def explosion (falsity a : Proposition) : Except Fault Proposition := do
  if falsity == .falsum then
    return a
  else
    throw (.preconditionFailed .explosion Proposition.falsum.text falsity.text)

/-- The proposition `A ∨ ¬A`. -/
def excludedMiddle (a : Proposition) : Proposition :=
  a.or a.not

/-- The proposition `¬(A ∧ ¬A)`. -/
def nonContradiction (a : Proposition) : Proposition :=
  (a.and a.not).not

/-- The proposition `A ⇒ A`. -/
def trivial (a : Proposition) : Proposition :=
  a.implies a

end Inference

/-! ## Proofs -/

namespace Kernel

/-- Issue a proof of a conclusion, unless there is none. -/
def conclude (conclusion : Except Fault Proposition) (rule : Rule) (premises : List Proof) :
    Kernel Proof := do
  certify (← liftExcept conclusion) rule premises

def modusPonens (ab a : Proof) : Kernel Proof :=
  conclude (Inference.modusPonens ab.conclusion a.conclusion) .modusPonens [ab, a]

def hypotheticalSyllogism (ab bc : Proof) : Kernel Proof :=
  conclude (Inference.hypotheticalSyllogism ab.conclusion bc.conclusion)
    .hypotheticalSyllogism [ab, bc]

def modusTollens (ab denial : Proof) : Kernel Proof :=
  conclude (Inference.modusTollens ab.conclusion denial.conclusion) .modusTollens [ab, denial]

def contradiction (a denial : Proof) : Kernel Proof :=
  conclude (Inference.contradiction a.conclusion denial.conclusion) .contradiction [a, denial]

/-- From `A` and `B`, conclude `A ∧ B`. -/
def conjunction (a b : Proof) : Kernel Proof :=
  certify (a.conclusion.and b.conclusion) .conjunction [a, b]

def andLeft (ab : Proof) : Kernel Proof :=
  conclude (Inference.andLeft ab.conclusion) .andLeft [ab]

def andRight (ab : Proof) : Kernel Proof :=
  conclude (Inference.andRight ab.conclusion) .andRight [ab]

def commuteAnd (ab : Proof) : Kernel Proof :=
  conclude (Inference.commuteAnd ab.conclusion) .commuteAnd [ab]

def commuteOr (ab : Proof) : Kernel Proof :=
  conclude (Inference.commuteOr ab.conclusion) .commuteOr [ab]

/-- From `A`, conclude `A ∨ B` for any `B`. -/
def disjunction (a : Proof) (b : Proposition) : Kernel Proof :=
  certify (a.conclusion.or b) .disjunction [a]

def equivalenceIntroduction (ab ba : Proof) : Kernel Proof :=
  conclude (Inference.equivalenceIntroduction ab.conclusion ba.conclusion)
    .equivalenceIntroduction [ab, ba]

def equivalenceElimination (equivalence : Proof) : Kernel (Proof × Proof) := do
  let (ab, ba) ← liftExcept (Inference.equivalenceElimination equivalence.conclusion)
  let forward ← certify ab .equivalenceElimination [equivalence]
  let backward ← certify ba .equivalenceElimination [equivalence]
  return (forward, backward)

def implicationToOr (ab : Proof) : Kernel Proof :=
  conclude (Inference.implicationToOr ab.conclusion) .implicationToOr [ab]

def orToImplication (ab : Proof) : Kernel Proof :=
  conclude (Inference.orToImplication ab.conclusion) .orToImplication [ab]

def explosion (falsity : Proof) (a : Proposition) : Kernel Proof :=
  conclude (Inference.explosion falsity.conclusion a) .explosion [falsity]

def excludedMiddle (a : Proposition) : Kernel Proof :=
  certify (Inference.excludedMiddle a) .excludedMiddle []

def nonContradiction (a : Proposition) : Kernel Proof :=
  certify (Inference.nonContradiction a) .nonContradiction []

def trivial (a : Proposition) : Kernel Proof :=
  certify (Inference.trivial a) .trivial []

end Kernel

end Deduction
