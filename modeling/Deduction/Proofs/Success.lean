import Deduction.Proofs.Binding

/-! # Calls that succeed

The converse of the table of rules for the calls that quantified statements are used
with: if the condition of the rule holds, then a proof is issued. Only substitution and
the choice of a witness create objects, so each statement also says how many there are
afterwards. -/

namespace Deduction

/-! ## Conditions -/

theorem Store.domain_of_unowned {x : Object} (noOwner : x.owner = none) (store : Store) :
    store.domain x = .ok none := by
  rw [Store.domain, noOwner]

namespace Inference

theorem notFree_of_not_occurs {bound replaced : Object} {premise : Proposition} (rule : Rule)
    (notFree : bound.key = replaced.key ∨ premise.occurs bound = false) :
    Inference.notFree rule bound replaced premise = .ok () := by
  rw [← Object.beq_iff_key] at notFree
  unfold Inference.notFree
  rw [if_neg]
  rcases notFree with same | absent
  · simp [same]
  · simp [absent]

theorem agree_of_beq {expected found : Proposition} (rule : Rule)
    (equal : (expected == found) = true) : agree rule expected found = .ok () :=
  if_pos equal

theorem quantification_of_eq (rule : Rule) {quantifier : Quantifier} {premise body : Proposition}
    {bound : Object} (isQuantified : premise = .quantified quantifier bound body) :
    quantification rule quantifier premise = .ok (bound, body) := by
  rw [isQuantified]
  exact if_pos rfl

theorem modusPonens_of_agree {ab a antecedent consequent : Proposition}
    (isImplication : ab = antecedent.implies consequent) (agrees : (antecedent == a) = true) :
    modusPonens ab a = .ok consequent := by
  have split : operands .modusPonens .implies ab = .ok (antecedent, consequent) := by
    rw [isImplication]
    rfl
  rw [modusPonens, split]
  change (agree .modusPonens antecedent a >>= fun _ => pure consequent) = _
  rw [agree_of_beq .modusPonens agrees]
  rfl

end Inference

/-! ## Issued proofs -/

namespace Kernel

variable {store : Store}

/-- The operation issues a proof of the conclusion, and there are `created` objects then. -/
def Proves (action : Kernel Proof) (store : Store) (conclusion : Proposition)
    (created : Nat) : Prop :=
  ∃ proof after, outcome action store = (.ok proof, after) ∧
    proof.conclusion = conclusion ∧ after.created = created

theorem Proves.of_ok {action : Kernel Proof} {conclusion : Proposition} {created : Nat}
    {proof : Proof} {after : Store} (proves : Proves action store conclusion created)
    (ok : outcome action store = (.ok proof, after)) :
    proof.conclusion = conclusion ∧ after.created = created := by
  obtain ⟨proof', after', ok', rfl, rfl⟩ := proves
  rw [ok] at ok'
  cases ok'
  exact ⟨rfl, rfl⟩

theorem outcome_get (store : Store) : outcome get store = (.ok store, store) := rfl

theorem outcome_substitute (p : Proposition) (old new : Object) (store : Store) :
    outcome (substitute p old new) store =
      (.ok (p.substitute old new store.created).1,
        { store with created := (p.substitute old new store.created).2 }) := rfl

theorem outcome_domain {bound : Object} {found : Option Collection}
    (isDomain : store.domain bound = .ok found) :
    outcome (domain bound) store = (.ok found, store) := by
  rw [domain, outcome_bind_of_ok (outcome_get store), isDomain]
  rfl

theorem proves_certify (conclusion : Proposition) (rule : Rule) (premises : List Proof)
    (store : Store) :
    Proves (certify conclusion rule premises) store conclusion store.created :=
  ⟨_, _, rfl, rfl, rfl⟩

theorem proves_conclude {attempt : Except Fault Proposition} {conclusion : Proposition}
    (ok : attempt = .ok conclusion) (rule : Rule) (premises : List Proof) (store : Store) :
    Proves (conclude attempt rule premises) store conclusion store.created := by
  rw [Proves, conclude, ok, outcome_bind_of_ok (outcome_liftExcept_ok conclusion store)]
  exact proves_certify ..

theorem proves_modusPonens {ab a : Proof} {antecedent consequent : Proposition}
    (isImplication : ab.conclusion = antecedent.implies consequent)
    (agrees : (antecedent == a.conclusion) = true) (store : Store) :
    Proves (modusPonens ab a) store consequent store.created :=
  proves_conclude (Inference.modusPonens_of_agree isImplication agrees) ..

theorem proves_universalResolution {all : Proof} {x y : Object} {body : Proposition}
    (isUniversal : all.conclusion = .quantified .universal x body)
    (admits : store.Admits x y) :
    Proves (universalResolution all y) store (body.substitute x y store.created).1
      (body.substitute x y store.created).2 := by
  rw [universalResolution, Proves, Inference.quantification_of_eq _ isUniversal,
    outcome_bind_of_ok (outcome_liftExcept_ok _ store)]
  rcases admits with noOwner | ⟨set, isDomain, contains⟩
  · rw [outcome_bind_of_ok (outcome_domain (store.domain_of_unowned noOwner))]
    exact ⟨_, _, rfl, rfl, rfl⟩
  · rw [outcome_bind_of_ok (outcome_domain isDomain)]
    dsimp only
    rw [outcome_bind_of_ok (outcome_get store), if_pos contains]
    exact ⟨_, _, rfl, rfl, rfl⟩

theorem outcome_universalResolution_of_not_contains {all : Proof} {x y : Object}
    {body : Proposition} {set : Collection}
    (isUniversal : all.conclusion = .quantified .universal x body)
    (isDomain : store.domain x = .ok (some set)) (outside : store.contains set y = false) :
    outcome (universalResolution all y) store = (.error (.notMember y set), store) := by
  rw [universalResolution, Inference.quantification_of_eq _ isUniversal,
    outcome_bind_of_ok (outcome_liftExcept_ok _ store),
    outcome_bind_of_ok (outcome_domain isDomain)]
  dsimp only
  rw [outcome_bind_of_ok (outcome_get store), outside]
  rfl

theorem proves_existentialIntroduction {instanceProof : Proof} {y x : Object}
    (notFree : x.key = y.key ∨ instanceProof.conclusion.occurs x = false) (store : Store) :
    Proves (existentialIntroduction instanceProof y x) store
      (.quantified .existential x (instanceProof.conclusion.substitute y x store.created).1)
      (instanceProof.conclusion.substitute y x store.created).2 := by
  rw [existentialIntroduction, Proves, Inference.notFree_of_not_occurs _ notFree,
    outcome_bind_of_ok (outcome_liftExcept_ok () store),
    outcome_bind_of_ok (outcome_substitute ..)]
  exact proves_certify ..

theorem outcome_restrict {x y : Object} (rule : Rule) (narrows : store.Narrows x y) :
    outcome (restrict rule x y) store = (.ok (), store) := by
  rcases narrows with noOwner | ⟨larger, smaller, isOuter, isInner, includes⟩
  · rw [restrict, outcome_bind_of_ok (outcome_domain (store.domain_of_unowned noOwner))]
    rfl
  · rw [restrict, outcome_bind_of_ok (outcome_domain isOuter)]
    dsimp only
    rw [outcome_bind_of_ok (outcome_domain isInner)]
    dsimp only
    rw [if_pos includes]
    rfl

theorem proves_quantifiedModusPonens {all premise : Proof} {x y : Object}
    {quantifier : Quantifier} {implication a antecedent consequent : Proposition}
    (isUniversal : all.conclusion = .quantified .universal x implication)
    (isQuantified : premise.conclusion = .quantified quantifier y a)
    (notFree : y.key = x.key ∨ all.conclusion.occurs y = false) (narrows : store.Narrows x y)
    (isImplication :
      (implication.substitute x y store.created).1 = antecedent.implies consequent)
    (agrees : (antecedent == a) = true) :
    Proves (quantifiedModusPonens all premise) store (.quantified quantifier y consequent)
      (implication.substitute x y store.created).2 := by
  have areOperands : (implication.substitute x y store.created).1.operands .implies =
      some (antecedent, consequent) := by
    rw [isImplication]
    rfl
  rw [quantifiedModusPonens, Proves, Inference.quantification_of_eq _ isUniversal,
    outcome_bind_of_ok (outcome_liftExcept_ok _ store)]
  dsimp only
  rw [isQuantified]
  dsimp only
  rw [Inference.notFree_of_not_occurs _ notFree,
    outcome_bind_of_ok (outcome_liftExcept_ok () store),
    outcome_bind_of_ok (outcome_restrict _ narrows),
    outcome_bind_of_ok (outcome_substitute ..), areOperands]
  dsimp only
  rw [Inference.agree_of_beq _ agrees, outcome_bind_of_ok (outcome_liftExcept_ok () _)]
  exact proves_certify ..

/-- A witness is the object created next, in the place of the bound variable. -/
theorem exists_existentialResolution {existence : Proof} {x : Object} {body : Proposition}
    {found : Option Collection}
    (isExistential : existence.conclusion = .quantified .existential x body)
    (isDomain : store.domain x = .ok found) :
    ∃ proof after,
      outcome (existentialResolution existence) store =
        (.ok (x.renamed store.created, proof), after) ∧
      proof.conclusion =
        (body.substitute x (x.renamed store.created) (store.created + 1)).1 ∧
      after.created = (body.substitute x (x.renamed store.created) (store.created + 1)).2 ∧
      after.living = store.living ∧ after.members = store.members := by
  have isWitness : (⟨store.created + 1, "", found.map Collection.id, []⟩ : Object) =
      x.renamed store.created := by
    rw [Object.renamed, Store.owner_of_domain isDomain]
  rw [existentialResolution, Inference.quantification_of_eq _ isExistential,
    outcome_bind_of_ok (outcome_liftExcept_ok _ store),
    outcome_bind_of_ok (outcome_domain isDomain), ← isWitness]
  exact ⟨_, _, rfl, rfl, rfl, rfl, rfl⟩

end Kernel

end Deduction
