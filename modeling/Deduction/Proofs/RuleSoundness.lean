import Deduction.Proofs.Interpretation
import Deduction.Proofs.Rules
import Deduction.Proofs.Skeleton

/-! # Soundness of rules

One application of a rule leads from truth to truth. Variables may range over
parts of the domain; then a rule is sound if the sets that it did not look at do
no harm, which is what `Suits` says. -/

namespace Deduction

universe u

variable {D : Type u}

/-! ## Compared propositions -/

namespace RuleCall

/-- The rule accepts the premises because the two propositions are equal or one
is equal to the negation of the other. -/
inductive Compares : RuleCall → Proposition → Proposition → Prop
  | modusPonens {ab a : Proof} {antecedent consequent : Proposition} :
      ab.conclusion = antecedent.implies consequent →
      Compares (.modusPonens ab a) antecedent a.conclusion
  | hypotheticalSyllogism {ab bc : Proof} {a b b' c : Proposition} :
      ab.conclusion = a.implies b → bc.conclusion = b'.implies c →
      Compares (.hypotheticalSyllogism ab bc) b b'
  | modusTollens {ab denial : Proof} {a b : Proposition} :
      ab.conclusion = a.implies b → Compares (.modusTollens ab denial) b denial.conclusion
  | contradiction (a denial : Proof) :
      Compares (.contradiction a denial) a.conclusion denial.conclusion
  | equivalenceLeft {ab ba : Proof} {a b a' b' : Proposition} :
      ab.conclusion = a.implies b → ba.conclusion = b'.implies a' →
      Compares (.equivalenceIntroduction ab ba) a a'
  | equivalenceRight {ab ba : Proof} {a b a' b' : Proposition} :
      ab.conclusion = a.implies b → ba.conclusion = b'.implies a' →
      Compares (.equivalenceIntroduction ab ba) b b'
  | quantifiedModusPonens {all premise : Proof} {x y : Object} {quantifier : Quantifier}
      {antecedent consequent a : Proposition} :
      all.conclusion = .quantified .universal x (antecedent.implies consequent) →
      premise.conclusion = .quantified quantifier y a →
      Compares (.quantifiedModusPonens all premise) antecedent a

end RuleCall

namespace Interpretation

/-- The ranges of variables suit a call: they cannot tell the propositions that
it compares, and what the call puts for a variable lies in the range of that. -/
structure Suits (I : Interpretation D) (values : Assignment D) (store : Store)
    (call : RuleCall) : Prop where
  compares : ∀ {p q}, call.Compares p q → I.RangesAlike p q
  admits : ∀ {x y}, store.Admits x y → y ∈ call.objects → I.range x.owner (values y.key)
  narrows : ∀ {x y}, store.Narrows x y → ∀ d, I.range y.owner d → I.range x.owner d
  introduces : ∀ {p y x}, call = .existentialIntroduction p y x → I.range x.owner (values y.key)

variable (I : Interpretation D) (values : Assignment D)

theorem Unrestricted.suits {I : Interpretation D} (unrestricted : I.Unrestricted)
    (store : Store) (call : RuleCall) : I.Suits values store call where
  compares _ := unrestricted.rangesAlike _ _
  admits _ _ := unrestricted _ _
  narrows _ d _ := unrestricted _ d
  introduces _ := unrestricted _ _

/-! ## Negation -/

theorem holds_of_contradicts {p denial : Proposition}
    (denies : Inference.contradicts p denial = true) (alike : I.RangesAlike p denial) :
    I.Holds values denial ↔ ¬I.Holds values p := by
  rcases Bool.or_eq_true_iff.mp denies with collapsed | literal
  · have sameRanges : I.RangesAlike denial p.not := by
      rw [RangesAlike, Proposition.owners_not]
      exact alike.symm
    rw [I.holds_of_beq values collapsed sameRanges, holds_not]
  · split at literal
    · rename_i q isNegated
      rw [Proposition.eq_of_negated isNegated] at alike ⊢
      have sameOwners : (q.implies .falsum).owners = q.owners := List.append_nil _
      have sameRanges : I.RangesAlike q p := by
        rw [RangesAlike, sameOwners] at alike
        exact RangesAlike.symm alike
      rw [holds_implies, I.holds_of_beq values literal sameRanges]
      exact Iff.rfl
    · cases literal

/-! ## Quantifiers -/

variable {I values}

theorem holds_of_universalResolution {x y : Object} {body : Proposition} {created : Nat}
    (precedes : (Proposition.quantified .universal x body).Precedes created)
    (yPrecedes : y.key.Precedes created) (inRange : I.range x.owner (values y.key))
    (holds : I.Holds values (.quantified .universal x body)) :
    I.Holds values (body.substitute x y created).1 := by
  have bodyPrecedes : body.Precedes created :=
    fun z member => precedes z (List.mem_cons_of_mem _ member)
  rw [I.holds_substitute values bodyPrecedes (precedes x List.mem_cons_self) yPrecedes]
  exact holds _ inRange

/-- The witness has one of the values that there are by the premise. It is new, so
that its value does not matter for the premise. -/
theorem holds_of_existentialResolution {x : Object} {body : Proposition} {created : Nat}
    (precedes : (Proposition.quantified .existential x body).Precedes created)
    (holds : I.Holds values (.quantified .existential x body)) :
    ∃ d, I.range x.owner d ∧
      I.Holds (Function.update values (x.renamed created).key d)
        (body.substitute x (x.renamed created) (created + 1)).1 := by
  obtain ⟨d, inRange, bodyHolds⟩ := holds
  refine ⟨d, inRange, ?_⟩
  have bodyPrecedes : body.Precedes created :=
    fun z member => precedes z (List.mem_cons_of_mem _ member)
  have xPrecedes : x.key.Precedes created := precedes x List.mem_cons_self
  have isNew : x.key ≠ (x.renamed created).key := by
    rw [Object.key_renamed]
    exact xPrecedes.ne_next
  have notOccurs : body.occurs (x.renamed created) = false := by
    rw [Bool.eq_false_iff]
    intro occurs
    exact (bodyPrecedes.of_occurs occurs).ne_next (Object.key_renamed x created)
  rw [I.holds_substitute _ (bodyPrecedes.mono (Nat.le_succ created))
    (xPrecedes.mono (Nat.le_succ created)) (by rw [Object.key_renamed]; exact Nat.le_refl _),
    Function.update_self, Function.update_comm isNew.symm, I.holds_update_of_not_occurs _ notOccurs]
  exact bodyHolds

theorem holds_of_existentialIntroduction {p : Proposition} {y x : Object} {created : Nat}
    (precedes : p.Precedes created) (yPrecedes : y.key.Precedes created)
    (xPrecedes : x.key.Precedes created) (allowed : x.key = y.key ∨ p.occurs x = false)
    (inRange : I.range x.owner (values y.key)) (holds : I.Holds values p) :
    I.Holds values (.quantified .existential x (p.substitute y x created).1) := by
  refine ⟨values y.key, inRange, ?_⟩
  dsimp only
  rw [I.holds_substitute _ precedes yPrecedes xPrecedes, Function.update_self]
  by_cases same : x.key = y.key
  · rw [same, Function.update_idem, Function.update_eq_self]
    exact holds
  · rw [Function.update_comm same, Function.update_eq_self,
      I.holds_update_of_not_occurs _ (allowed.resolve_left same)]
    exact holds

theorem holds_of_quantifiedModusPonens {x y : Object} {quantifier : Quantifier} {created : Nat}
    {implication a antecedent consequent : Proposition}
    (precedes : (Proposition.quantified .universal x implication).Precedes created)
    (yPrecedes : y.key.Precedes created)
    (allowed : y.key = x.key ∨ (Proposition.quantified .universal x implication).occurs y = false)
    (narrows : ∀ d, I.range y.owner d → I.range x.owner d)
    (isImplication : (implication.substitute x y created).1 = antecedent.implies consequent)
    (agrees : (antecedent == a) = true) (alike : I.RangesAlike antecedent a)
    (allHolds : I.Holds values (.quantified .universal x implication))
    (premiseHolds : I.Holds values (.quantified quantifier y a)) :
    I.Holds values (.quantified quantifier y consequent) := by
  have implicationPrecedes : implication.Precedes created :=
    fun z member => precedes z (List.mem_cons_of_mem _ member)
  have atValue : ∀ d, I.range y.owner d → I.Holds (Function.update values y.key d) a →
      I.Holds (Function.update values y.key d) consequent := by
    intro d inRange aHolds
    have instanceHolds :
        I.Holds (Function.update values y.key d) (antecedent.implies consequent) := by
      rw [← isImplication, I.holds_substitute _ implicationPrecedes (precedes x List.mem_cons_self)
        yPrecedes, Function.update_self]
      by_cases same : y.key = x.key
      · rw [same, Function.update_idem]
        exact allHolds d (narrows d inRange)
      · have notOccurs : implication.occurs y = false := by
          simpa [Proposition.occurs, Object.beq_eq_false_iff_key.mpr (Ne.symm same)]
            using allowed.resolve_left same
        rw [Function.update_comm same, I.holds_update_of_not_occurs _ notOccurs]
        exact allHolds d (narrows d inRange)
    exact instanceHolds ((I.holds_of_beq _ agrees alike).mpr aHolds)
  cases quantifier with
  | universal => exact fun d inRange => atValue d inRange (premiseHolds d inRange)
  | existential =>
      obtain ⟨d, inRange, aHolds⟩ := premiseHolds
      exact ⟨d, inRange, atValue d inRange aHolds⟩

/-! ## All rules -/

theorem holds_of_yields {call : RuleCall} {store : Store} {conclusion : Proposition}
    (yields : call.Yields store conclusion) (noWitness : call.rule ≠ .existentialResolution)
    (precedes : call.Precedes store.created) (suits : I.Suits values store call)
    (premisesHold : ∀ premise ∈ call.premises, I.Holds values premise.conclusion) :
    I.Holds values conclusion := by
  -- The premises are named by their place, the first or the second.
  have first : ∀ {p rest}, call.premises = p :: rest → I.Holds values p.conclusion :=
    fun are => premisesHold _ (are ▸ List.mem_cons_self)
  have second : ∀ {p q rest}, call.premises = p :: q :: rest → I.Holds values q.conclusion :=
    fun are => premisesHold _ (are ▸ List.mem_cons_of_mem _ List.mem_cons_self)
  have firstPrecedes : ∀ {p rest}, call.premises = p :: rest →
      p.conclusion.Precedes store.created :=
    fun are => precedes.1 _ (are ▸ List.mem_cons_self)
  cases yields with
  | modusPonens isImplication agrees =>
      have implication := first rfl
      rw [isImplication] at implication
      exact implication ((I.holds_of_beq values agrees
        (suits.compares (.modusPonens isImplication))).mpr (second rfl))
  | hypotheticalSyllogism isFirst isSecond agrees =>
      have ab := first rfl
      have bc := second rfl
      rw [isFirst] at ab
      rw [isSecond] at bc
      intro a
      exact bc ((I.holds_of_beq values agrees
        (suits.compares (.hypotheticalSyllogism isFirst isSecond))).mp (ab a))
  | modusTollens isImplication denies =>
      have implication := first rfl
      rw [isImplication] at implication
      have notB := (I.holds_of_contradicts values denies
        (suits.compares (.modusTollens isImplication))).mp (second rfl)
      exact (I.holds_not values _).mpr fun a => notB (implication a)
  | contradiction denies =>
      exact (I.holds_of_contradicts values denies
        (suits.compares (.contradiction _ _))).mp (second rfl) (first rfl)
  | conjunction a b => exact ⟨first rfl, second rfl⟩
  | andLeft isAnd =>
      have both := first rfl
      rw [isAnd] at both
      exact both.1
  | andRight isAnd =>
      have both := first rfl
      rw [isAnd] at both
      exact both.2
  | commuteAnd isAnd =>
      have both := first rfl
      rw [isAnd] at both
      exact both.symm
  | commuteOr isOr =>
      have either := first rfl
      rw [isOr] at either
      exact either.symm
  | disjunction a b => exact .inl (first rfl)
  | equivalenceIntroduction isForward isBackward agreeA agreeB =>
      have forward := first rfl
      have backward := second rfl
      rw [isForward] at forward
      rw [isBackward] at backward
      have sameA := I.holds_of_beq values agreeA
        (suits.compares (.equivalenceLeft isForward isBackward))
      have sameB := I.holds_of_beq values agreeB
        (suits.compares (.equivalenceRight isForward isBackward))
      exact ⟨forward, fun b => sameA.mpr (backward (sameB.mp b))⟩
  | equivalenceForward isEquivalence =>
      have equivalence := first rfl
      rw [isEquivalence] at equivalence
      exact equivalence.mp
  | equivalenceBackward isEquivalence =>
      have equivalence := first rfl
      rw [isEquivalence] at equivalence
      exact equivalence.mpr
  | implicationToOr isImplication =>
      have implication := first rfl
      rw [isImplication, holds_implies] at implication
      rw [holds_or, holds_not]
      exact not_or_of_imp implication
  | orToImplication isOr =>
      have either := first rfl
      rw [isOr, holds_or] at either
      rw [holds_implies, holds_not]
      exact either.resolve_left
  | explosion a isFalsum =>
      have absurdity := first rfl
      rw [isFalsum] at absurdity
      exact absurdity.elim
  | excludedMiddle a =>
      rw [holds_or, holds_not]
      exact em _
  | nonContradiction a =>
      rw [holds_not, holds_and, holds_not]
      exact and_not_self
  | trivial a => exact id
  | universalResolution isUniversal admits =>
      have all := first rfl
      have allPrecedes := firstPrecedes rfl
      rw [isUniversal] at all allPrecedes
      exact holds_of_universalResolution allPrecedes (precedes.2 _ List.mem_cons_self)
        (suits.admits admits List.mem_cons_self) all
  | existentialResolution isExistential => exact absurd rfl noWitness
  | existentialIntroduction allowed =>
      exact holds_of_existentialIntroduction (firstPrecedes rfl)
        (precedes.2 _ List.mem_cons_self) (precedes.2 _ (List.mem_cons_of_mem _ List.mem_cons_self))
        allowed (suits.introduces rfl) (first rfl)
  | quantifiedModusPonens isUniversal isQuantified allowed narrows isImplication agrees =>
      have all := first rfl
      have allPrecedes := firstPrecedes rfl
      have premise := second rfl
      have premisePrecedes := precedes.1 _ (List.mem_cons_of_mem _ List.mem_cons_self)
      rw [isUniversal] at all allPrecedes allowed
      rw [isQuantified] at premise premisePrecedes
      obtain ⟨antecedent', consequent', rfl, rfl⟩ :=
        Proposition.eq_of_substitute_binary isImplication
      have alike := suits.compares (.quantifiedModusPonens isUniversal isQuantified)
      rw [RangesAlike, ← Proposition.owners_substitute] at alike
      exact holds_of_quantifiedModusPonens allPrecedes (premisePrecedes _ List.mem_cons_self)
        allowed (suits.narrows narrows) isImplication agrees alike all premise

end Interpretation

end Deduction
