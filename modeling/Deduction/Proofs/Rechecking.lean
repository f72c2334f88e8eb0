import Deduction.Proofs.Soundness

/-! # Rechecking derivations

A derivation can be checked again from its tree alone. A propositional rule is called
again on the premises that the node records. A quantifier rule is compared with its
schema up to the choice of bound variables, since the variables that it had to rename
are not recorded. -/

namespace Deduction

open Session (Item)
open Kernel

/-- The proposition is the body with one object in the place of another, up to the choice
of bound variables. -/
def Proposition.IsInstance (p body : Proposition) (old new : Object) : Prop :=
  p.nameless = body.nameless.replaceFree old.key new.key

namespace Proof

/-! ## Propositional rules -/

/-- The call of a propositional rule that a node records. What it takes besides its
premises is read off the conclusion. -/
def recordedCall (node : Proof) : Option RuleCall :=
  match node.rule, node.premises with
  | .modusPonens, [ab, a] => some (.modusPonens ab a)
  | .hypotheticalSyllogism, [ab, bc] => some (.hypotheticalSyllogism ab bc)
  | .modusTollens, [ab, denial] => some (.modusTollens ab denial)
  | .contradiction, [a, denial] => some (.contradiction a denial)
  | .conjunction, [a, b] => some (.conjunction a b)
  | .andLeft, [ab] => some (.andLeft ab)
  | .andRight, [ab] => some (.andRight ab)
  | .commuteAnd, [ab] => some (.commuteAnd ab)
  | .commuteOr, [ab] => some (.commuteOr ab)
  | .disjunction, [a] => do
      let (_, b) ← node.conclusion.operands .or
      return .disjunction a b
  | .equivalenceIntroduction, [ab, ba] => some (.equivalenceIntroduction ab ba)
  | .equivalenceElimination, [equivalence] => some (.equivalenceElimination equivalence)
  | .implicationToOr, [ab] => some (.implicationToOr ab)
  | .orToImplication, [ab] => some (.orToImplication ab)
  | .explosion, [falsity] => some (.explosion falsity node.conclusion)
  | .excludedMiddle, [] => do
      let (a, _) ← node.conclusion.operands .or
      return .excludedMiddle a
  | .nonContradiction, [] => do
      let (a, _) ← (← node.conclusion.negated).operands .and
      return .nonContradiction a
  | .trivial, [] => do
      let (a, _) ← node.conclusion.operands .implies
      return .trivial a
  | _, _ => none

/-- Two nodes conclude the same from the same premises by the same rule. -/
structure SameStep (node other : Proof) : Prop where
  conclusion : node.conclusion = other.conclusion
  rule : node.rule = other.rule
  premises : node.premises = other.premises

/-- By its rule, the call that the node records yields the conclusion of the node. In every
store it succeeds and takes the same step. -/
def Recurs (node : Proof) : Prop :=
  ∃ call, node.recordedCall = some call ∧
    ∀ store, call.Yields store node.conclusion ∧
      ∃ items after, outcome call.perform store = (.ok items, after) ∧
        ∃ again, .proof again ∈ items ∧ again.SameStep node

/-! ## Schemas of the other rules -/

def IsUniversalResolution (node : Proof) : Prop :=
  ∃ all x body y, node.premises = [all] ∧ all.conclusion = .quantified .universal x body ∧
    node.conclusion.IsInstance body x y

/-- The witness has no name and occurs nowhere in the derivation of its existence. -/
def IsExistentialResolution (node : Proof) : Prop :=
  ∃ existence x body witness, node.premises = [existence] ∧
    existence.conclusion = .quantified .existential x body ∧
    witness.name = "" ∧
    (∀ ancestor : Proof, ancestor.IsNodeOf existence →
      ∀ y ∈ ancestor.conclusion.objects, y.key ≠ witness.key) ∧
    node.conclusion.IsInstance body x witness

def IsExistentialIntroduction (node : Proof) : Prop :=
  ∃ premise x body y, node.premises = [premise] ∧
    node.conclusion = .quantified .existential x body ∧ premise.conclusion.IsInstance body x y

def IsQuantifiedModusPonens (node : Proof) : Prop :=
  ∃ all premise x y a b antecedent quantifier premiseBody body,
    node.premises = [all, premise] ∧
    all.conclusion = .quantified .universal x (a.implies b) ∧
    premise.conclusion = .quantified quantifier y premiseBody ∧
    antecedent.IsInstance a x y ∧ (antecedent == premiseBody) = true ∧
    node.conclusion = .quantified quantifier y body ∧ body.IsInstance b x y

def IsMembership (node : Proof) : Prop :=
  node.premises = [] ∧ ∃ x set, node.conclusion = .member x set

def IsOrdering (node : Proof) : Prop :=
  node.premises = [] ∧
    ∃ x relation y, node.conclusion = .ordered x relation y ∧ relation.evaluate x y = some true

/-- What the node concludes follows from its premises by the rule that it records. -/
def Rechecks (node : Proof) : Prop :=
  match node.rule with
  | .postulate => node.IsAssertion
  | .universalResolution => node.IsUniversalResolution
  | .existentialResolution => node.IsExistentialResolution
  | .existentialIntroduction => node.IsExistentialIntroduction
  | .quantifiedModusPonens => node.IsQuantifiedModusPonens
  | .membership => node.IsMembership
  | .ordering => node.IsOrdering
  | _ => node.Recurs

end Proof

/-! ## Repeated calls -/

namespace RuleCall

/-- The rule looks at nothing but propositions. -/
def isPropositional : RuleCall → Bool
  | universalResolution _ _ => false
  | existentialResolution _ => false
  | existentialIntroduction _ _ _ => false
  | quantifiedModusPonens _ _ => false
  | _ => true

variable {call : RuleCall} {store after : Store} {items : List Item} {node : Proof}

theorem Issues.recordedCall (issues : call.Issues store node)
    (isPropositional : call.isPropositional = true) : node.recordedCall = some call := by
  obtain ⟨yields, isRule, arePremises⟩ := issues
  rw [Proof.recordedCall, isRule, arePremises]
  generalize node.conclusion = conclusion at yields ⊢
  cases yields with
  | universalResolution => cases isPropositional
  | existentialResolution => cases isPropositional
  | existentialIntroduction => cases isPropositional
  | quantifiedModusPonens => cases isPropositional
  | _ => rfl

theorem recurs_of_repeats (isRecorded : node.recordedCall = some call)
    (repeats : ∀ store, ∃ items after, outcome call.perform store = (.ok items, after) ∧
      ∃ again, .proof again ∈ items ∧ again.SameStep node) : node.Recurs := by
  refine ⟨call, isRecorded, fun store => ?_⟩
  obtain ⟨items, after, performed, again, member, same⟩ := repeats store
  have yields := (issues_of_perform performed member).yields
  rw [same.conclusion] at yields
  exact ⟨yields, items, after, performed, again, member, same⟩

/-- A rule that looks at propositions only does in every store what it does in one. -/
theorem recurs_of_conclude {attempt : Except Fault Proposition}
    (performed : outcome call.perform store = (.ok items, after)) (member : .proof node ∈ items)
    (isRecorded : node.recordedCall = some call)
    (isConclusion : call.perform = single .proof (conclude attempt call.rule call.premises)) :
    node.Recurs := by
  rw [isConclusion] at performed
  obtain ⟨issued, concluded, rfl⟩ := ok_of_single performed
  cases List.mem_singleton.mp member
  obtain ⟨isOk, isRule, arePremises⟩ := ok_of_conclude concluded
  refine recurs_of_repeats isRecorded fun store => ?_
  rw [isConclusion, isOk]
  exact ⟨_, _, rfl, _, List.mem_cons_self, rfl, isRule.symm, arePremises.symm⟩

theorem recurs_of_certify {conclusion : Proposition}
    (performed : outcome call.perform store = (.ok items, after)) (member : .proof node ∈ items)
    (isRecorded : node.recordedCall = some call)
    (isCertified : call.perform = single .proof (certify conclusion call.rule call.premises)) :
    node.Recurs := by
  have isConclusion :
      call.perform = single .proof (conclude (.ok conclusion) call.rule call.premises) :=
    isCertified
  exact recurs_of_conclude performed member isRecorded isConclusion

/-- Of the two conclusions of an equivalence, each one recurs. -/
theorem recurs_of_equivalenceElimination {equivalence : Proof}
    (performed : outcome (equivalenceElimination equivalence).perform store = (.ok items, after))
    (member : .proof node ∈ items)
    (isRecorded : node.recordedCall = some (.equivalenceElimination equivalence)) :
    node.Recurs := by
  obtain ⟨⟨forward, backward⟩, middle, eliminated, returned⟩ := ok_of_bind performed
  cases returned
  obtain ⟨⟨ab, ba⟩, middle, lifted, eliminated⟩ := ok_of_bind eliminated
  obtain ⟨isOk, rfl⟩ := ok_of_liftExcept lifted
  obtain ⟨first, middle, firstIssued, eliminated⟩ := ok_of_bind eliminated
  obtain ⟨second, middle, secondIssued, returned⟩ := ok_of_bind eliminated
  cases returned
  refine recurs_of_repeats isRecorded fun store => ?_
  rw [perform, Kernel.equivalenceElimination, isOk]
  refine ⟨_, _, rfl, ?_⟩
  rcases List.mem_cons.mp member with isFirst | isSecond
  · cases isFirst
    obtain ⟨isConclusion, isRule, arePremises⟩ := ok_of_certify firstIssued
    exact ⟨_, List.mem_cons_self, isConclusion.symm, isRule.symm, arePremises.symm⟩
  · cases List.mem_singleton.mp isSecond
    obtain ⟨isConclusion, isRule, arePremises⟩ := ok_of_certify secondIssued
    exact ⟨_, List.mem_cons_of_mem _ List.mem_cons_self, isConclusion.symm, isRule.symm,
      arePremises.symm⟩

theorem recurs_of_perform (performed : outcome call.perform store = (.ok items, after))
    (member : .proof node ∈ items) (isPropositional : call.isPropositional = true) :
    node.Recurs := by
  have isRecorded := (issues_of_perform performed member).recordedCall isPropositional
  cases call with
  | universalResolution all y => cases isPropositional
  | existentialResolution existence => cases isPropositional
  | existentialIntroduction instanceProof y x => cases isPropositional
  | quantifiedModusPonens all premise => cases isPropositional
  | equivalenceElimination equivalence =>
      exact recurs_of_equivalenceElimination performed member isRecorded
  | conjunction a b => exact recurs_of_certify performed member isRecorded rfl
  | disjunction a b => exact recurs_of_certify performed member isRecorded rfl
  | excludedMiddle a => exact recurs_of_certify performed member isRecorded rfl
  | nonContradiction a => exact recurs_of_certify performed member isRecorded rfl
  | trivial a => exact recurs_of_certify performed member isRecorded rfl
  | _ => exact recurs_of_conclude performed member isRecorded rfl

end RuleCall

/-! ## Instances -/

namespace Nameless

theorem Leaf.replaceFree_back {leaf : Leaf} {old new : Object.Key}
    (apart : old = new ∨ leaf ≠ .free new) :
    (leaf.replaceFree old new).replaceFree new old = leaf := by
  cases leaf with
  | bound index => rfl
  | free key => grind [Leaf.replaceFree]

/-- A replacement can be taken back if what was put in was not there before. -/
theorem replaceFree_back {p : Nameless} {old new : Object.Key}
    (apart : ∀ leaf ∈ p.leaves, old = new ∨ leaf ≠ .free new) :
    (p.replaceFree old new).replaceFree new old = p := by
  induction p with
  | atom name arguments =>
      have same : ∀ argument ∈ arguments,
          (argument.replaceFree old new).replaceFree new old = argument := by
        intro argument member
        cases argument with
        | object leaf =>
            have isLeaf : leaf ∈ (atom name arguments).leaves :=
              List.mem_flatMap.mpr ⟨_, member, List.mem_singleton_self leaf⟩
            rw [Argument.replaceFree, Argument.replaceFree,
              Leaf.replaceFree_back (apart leaf isLeaf)]
        | set s => rfl
      rw [replaceFree, replaceFree, List.map_map]
      exact congrArg (atom name) ((List.map_congr_left same).trans (List.map_id' arguments))
  | falsum => rfl
  | binary left connective right leftInduction rightInduction =>
      obtain ⟨ofLeft, ofRight⟩ := List.forall_mem_append.mp apart
      rw [replaceFree, replaceFree, leftInduction ofLeft, rightInduction ofRight]
  | quantified quantifier owner body induction =>
      rw [replaceFree, replaceFree, induction apart]
  | member element set =>
      rw [replaceFree, replaceFree, Leaf.replaceFree_back (apart _ List.mem_cons_self)]
  | ordered left relation right =>
      obtain ⟨ofLeft, ofRight⟩ := List.forall_mem_cons.mp apart
      rw [replaceFree, replaceFree, Leaf.replaceFree_back ofLeft,
        Leaf.replaceFree_back (ofRight _ List.mem_cons_self)]

end Nameless

namespace Proposition

variable {p : Proposition} {old new : Object} {created : Nat}

theorem isInstance_substitute (precedes : p.Precedes created)
    (oldPrecedes : old.key.Precedes created) (newPrecedes : new.key.Precedes created) :
    (p.substitute old new created).1.IsInstance p old new := by
  rw [IsInstance, nameless, namelessIn_substitute precedes oldPrecedes newPrecedes, nameless,
    replaceFree_namelessIn, Nameless.Scope.outermost_replaceFree]

theorem IsInstance.back {q : Proposition} (isInstance : q.IsInstance p old new)
    (apart : new.key = old.key ∨ p.occurs new = false) : p.IsInstance q new old := by
  rw [IsInstance, isInstance, Nameless.replaceFree_back]
  intro leaf member
  refine apart.imp Eq.symm fun notFree isFree => ?_
  have outside : ∀ key, Nameless.Scope.outermost key = .free new.key → key = new.key :=
    fun key isKey => Nameless.Leaf.free.inj isKey
  rw [isFree] at member
  have occurs := ((free_mem_leaves_namelessIn p outside).mp member).1
  rw [notFree] at occurs
  cases occurs

end Proposition

/-! ## Issued nodes -/

namespace RuleCall

variable {store : Store} {node : Proof}

theorem Issues.isUniversalResolution {all : Proof} {y : Object}
    (issues : (universalResolution all y).Issues store node)
    (precedes : (universalResolution all y).Precedes store.created) :
    node.IsUniversalResolution := by
  obtain ⟨yields, _, arePremises⟩ := issues
  generalize isConclusion : node.conclusion = conclusion at yields
  cases yields with
  | @universalResolution _ x _ body isUniversal _ =>
      have allPrecedes := precedes.1 all List.mem_cons_self
      rw [isUniversal] at allPrecedes
      obtain ⟨xPrecedes, bodyPrecedes⟩ := List.forall_mem_cons.mp allPrecedes
      refine ⟨all, x, body, y, arePremises, isUniversal, ?_⟩
      rw [isConclusion]
      exact Proposition.isInstance_substitute bodyPrecedes xPrecedes
        (precedes.2 y List.mem_cons_self)

theorem Issues.isExistentialResolution {existence : Proof}
    (issues : (existentialResolution existence).Issues store node)
    (within : existence.Within (·.id ≤ store.created)) : node.IsExistentialResolution := by
  obtain ⟨x, body, isExistential, isConclusion⟩ := issues.yields.of_existentialResolution
  have precedes := within.conclusion.precedes
  rw [isExistential] at precedes
  obtain ⟨xPrecedes, bodyPrecedes⟩ := List.forall_mem_cons.mp precedes
  have later := Nat.le_succ store.created
  have witnessPrecedes : (x.renamed store.created).key.Precedes (store.created + 1) := by
    rw [Object.key_renamed]
    exact Nat.le_refl (store.created + 1)
  refine ⟨existence, x, body, x.renamed store.created, issues.premises, isExistential, rfl, ?_, ?_⟩
  · intro ancestor isNode y member
    rw [Object.key_renamed]
    exact ((within ancestor isNode).precedes y member).ne_next
  · rw [isConclusion]
    exact Proposition.isInstance_substitute (Proposition.Precedes.mono bodyPrecedes later)
      (xPrecedes.mono later) witnessPrecedes

theorem Issues.isExistentialIntroduction {instanceProof : Proof} {y x : Object}
    (issues : (existentialIntroduction instanceProof y x).Issues store node)
    (precedes : (existentialIntroduction instanceProof y x).Precedes store.created) :
    node.IsExistentialIntroduction := by
  obtain ⟨yields, _, arePremises⟩ := issues
  generalize isConclusion : node.conclusion = conclusion at yields
  cases yields with
  | existentialIntroduction notFree =>
      obtain ⟨yPrecedes, xPrecedes⟩ := List.forall_mem_cons.mp precedes.2
      have isInstance := Proposition.isInstance_substitute
        (precedes.1 instanceProof List.mem_cons_self) yPrecedes
        (xPrecedes x List.mem_cons_self)
      exact ⟨instanceProof, x, _, y, arePremises, isConclusion, isInstance.back notFree⟩

theorem Issues.isQuantifiedModusPonens {all premise : Proof}
    (issues : (quantifiedModusPonens all premise).Issues store node)
    (precedes : (quantifiedModusPonens all premise).Precedes store.created) :
    node.IsQuantifiedModusPonens := by
  obtain ⟨yields, _, arePremises⟩ := issues
  generalize isConclusion : node.conclusion = conclusion at yields
  cases yields with
  | @quantifiedModusPonens _ _ x y quantifier implication premiseBody antecedent consequent
      isUniversal isQuantified _ _ isImplication agrees =>
      have allPrecedes := precedes.1 all List.mem_cons_self
      rw [isUniversal] at allPrecedes
      obtain ⟨xPrecedes, implicationPrecedes⟩ := List.forall_mem_cons.mp allPrecedes
      have premisePrecedes :=
        precedes.1 premise (List.mem_cons_of_mem _ List.mem_cons_self)
      rw [isQuantified] at premisePrecedes
      obtain ⟨yPrecedes, _⟩ := List.forall_mem_cons.mp premisePrecedes
      have isInstance : (antecedent.implies consequent).IsInstance implication x y := by
        rw [← isImplication]
        exact Proposition.isInstance_substitute implicationPrecedes xPrecedes yPrecedes
      obtain ⟨a, b, rfl, _⟩ := Proposition.eq_of_substitute_binary isImplication
      -- Both sides of the implication are instances, since the connective stays in its place.
      obtain ⟨ofAntecedent, _, ofConsequent⟩ := Nameless.binary.inj isInstance
      exact ⟨all, premise, x, y, a, b, antecedent, quantifier, premiseBody, consequent,
        arePremises, isUniversal, isQuantified, ofAntecedent, agrees, isConclusion, ofConsequent⟩

end RuleCall

namespace Run

variable {run : Run} {node : Proof}

theorem rechecks_of_rule {call : RuleCall} (reachable : run.Reachable)
    (held : ∀ item ∈ call.operands, run.Holds item)
    (member : .proof node ∈ run.results (.rule call)) : node.Rechecks := by
  obtain ⟨items, performed, areResults⟩ := ok_of_mem_results member
  change outcome call.perform run.store = _ at performed
  rw [areResults] at member
  have issues := RuleCall.issues_of_perform performed member
  have precedes := reachable.precedes_of_held held
  rw [Proof.Rechecks, issues.rule]
  cases call with
  | universalResolution all y => exact issues.isUniversalResolution precedes
  | existentialResolution existence =>
      exact issues.isExistentialResolution (reachable.within (held _ List.mem_cons_self))
  | existentialIntroduction instanceProof y x => exact issues.isExistentialIntroduction precedes
  | quantifiedModusPonens all premise => exact issues.isQuantifiedModusPonens precedes
  | _ => exact RuleCall.recurs_of_perform performed member rfl

theorem Issued.rechecks (issued : run.Issued node) : node.Rechecks := by
  cases issued with
  | intro reachable held issues _ =>
      cases issues with
      | rule member => exact rechecks_of_rule reachable held member
      | postulate _ isNode =>
          have isAssertion := Proof.isAssertion_of_postulated isNode
          rw [Proof.Rechecks, isAssertion.rule]
          exact isAssertion
      | membership _ isMember isRule noPremises =>
          rw [Proof.Rechecks, isRule]
          exact ⟨noPremises, _, _, isMember⟩
      | ordering holds isOrdered isRule noPremises =>
          rw [Proof.Rechecks, isRule]
          exact ⟨noPremises, _, _, _, isOrdered, holds⟩

/-- Every derivation in every run can be checked again from its tree alone. -/
theorem Reachable.rechecks_of_held (reachable : run.Reachable) {item : Item}
    (held : run.Holds item) (hasNode : item.HasNode node) : node.Rechecks :=
  (reachable.issued held hasNode).rechecks

/-- A witness that was resolved, and a weakening below a commutation. -/
theorem Reachable.rechecks_of_held_sample :
    (Sample.resolving.Reachable ∧ Sample.resolving.Holds (.proof Sample.resolved) ∧
      Sample.resolved.IsExistentialResolution) ∧
    Sample.weakening.Reachable ∧ Sample.weakening.Holds (.proof Sample.commuted) ∧
      Sample.weakened.IsNodeOf Sample.commuted ∧ Sample.weakened.Recurs := by
  have holdsCommuted : Sample.weakening.Holds (.proof Sample.commuted) :=
    .result List.mem_cons_self List.mem_cons_self
  have isNode : Sample.weakened.IsNodeOf Sample.commuted := .above List.mem_cons_self .root
  exact ⟨⟨Sample.reachable_resolving, Sample.holds_resolved,
      Sample.reachable_resolving.rechecks_of_held Sample.holds_resolved Proof.IsNodeOf.root⟩,
    Sample.reachable_weakening, holdsCommuted, isNode,
    Sample.reachable_weakening.rechecks_of_held holdsCommuted isNode⟩

end Run

end Deduction
