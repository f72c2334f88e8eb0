import Deduction.Proofs.Run

/-! # Conclusions of rules

What a successful call of a rule concludes from what. The relation `Yields` is the
table of rules; all that is proved about them later rests on it. -/

namespace Deduction

open Session (Item)

/-! ## Successful operations -/

namespace Kernel

variable {α β : Type} {store after : Store}

theorem outcome_bind_of_ok {action : Kernel α} {next : α → Kernel β} {middle : Store} {a : α}
    (ok : outcome action store = (.ok a, middle)) :
    outcome (action >>= next) store = outcome (next a) middle := by
  unfold outcome at ok ⊢
  rw [ExceptT.run_bind, StateT.run_bind, ok]
  rfl

theorem outcome_bind_of_error {action : Kernel α} {next : α → Kernel β} {middle : Store}
    {fault : Fault} (error : outcome action store = (.error fault, middle)) :
    outcome (action >>= next) store = (.error fault, middle) := by
  unfold outcome at error ⊢
  rw [ExceptT.run_bind, StateT.run_bind, error]
  rfl

theorem ok_of_bind {action : Kernel α} {next : α → Kernel β} {result : β}
    (ok : outcome (action >>= next) store = (.ok result, after)) :
    ∃ a middle, outcome action store = (.ok a, middle) ∧
      outcome (next a) middle = (.ok result, after) := by
  unfold outcome at ok ⊢
  rw [ExceptT.run_bind, StateT.run_bind] at ok
  rcases first : action.run.run store with ⟨fault | a, middle⟩
  · rw [first] at ok
    cases ok
  · rw [first] at ok
    exact ⟨a, middle, rfl, ok⟩

theorem ok_of_liftExcept {attempt : Except Fault α} {a : α}
    (ok : outcome (liftExcept attempt) store = (.ok a, after)) :
    attempt = .ok a ∧ store = after := by
  cases attempt with
  | error fault => cases ok
  | ok value =>
      cases ok
      exact ⟨rfl, rfl⟩

theorem ok_of_certify {conclusion : Proposition} {rule : Rule} {premises : List Proof}
    {proof : Proof} (ok : outcome (certify conclusion rule premises) store = (.ok proof, after)) :
    proof.conclusion = conclusion ∧ proof.rule = rule ∧ proof.premises = premises := by
  cases ok
  exact ⟨rfl, rfl, rfl⟩

theorem ok_of_conclude {attempt : Except Fault Proposition} {rule : Rule} {premises : List Proof}
    {proof : Proof} (ok : outcome (conclude attempt rule premises) store = (.ok proof, after)) :
    attempt = .ok proof.conclusion ∧ proof.rule = rule ∧ proof.premises = premises := by
  obtain ⟨conclusion, middle, lifted, issued⟩ := ok_of_bind ok
  obtain ⟨rfl, parts⟩ := ok_of_certify issued
  exact ⟨(ok_of_liftExcept lifted).1, parts⟩

theorem ok_of_single {wrap : α → Item} {action : Kernel α} {items : List Item}
    (ok : outcome (single wrap action) store = (.ok items, after)) :
    ∃ a, outcome action store = (.ok a, after) ∧ items = [wrap a] := by
  obtain ⟨a, middle, performed, returned⟩ := ok_of_bind ok
  cases returned
  exact ⟨a, performed, rfl⟩

end Kernel

/-! ## Conclusions on propositions -/

theorem Proposition.eq_of_operands {connective : Connective} {p : Proposition}
    {parts : Proposition × Proposition} (found : p.operands connective = some parts) :
    p = .binary parts.1 connective parts.2 := by
  cases p with
  | binary left connective' right =>
      by_cases same : connective' = connective
      · rw [Proposition.operands, if_pos same] at found
        cases found
        rw [same]
      · rw [Proposition.operands, if_neg same] at found
        cases found
  | _ => cases found

namespace Inference

variable {rule : Rule} {conclusion : Proposition}

theorem ok_of_bind {α β : Type} {attempt : Except Fault α} {next : α → Except Fault β}
    {result : β} (ok : (attempt >>= next) = .ok result) :
    ∃ a, attempt = .ok a ∧ next a = .ok result := by
  cases attempt with
  | error fault => cases ok
  | ok a => exact ⟨a, rfl, ok⟩

theorem eq_of_operands {connective : Connective} {premise : Proposition}
    {parts : Proposition × Proposition} (ok : operands rule connective premise = .ok parts) :
    premise = .binary parts.1 connective parts.2 := by
  unfold operands at ok
  split at ok
  · rename_i found
    cases ok
    exact Proposition.eq_of_operands found
  · cases ok

theorem beq_of_agree {expected found : Proposition} {done : Unit}
    (ok : agree rule expected found = .ok done) : (expected == found) = true := by
  unfold agree at ok
  split at ok
  · assumption
  · cases ok

theorem contradicts_of_denied {p denial : Proposition} {done : Unit}
    (ok : denied rule p denial = .ok done) : contradicts p denial = true := by
  unfold denied at ok
  split at ok
  · assumption
  · cases ok

theorem eq_of_quantification {quantifier : Quantifier} {premise : Proposition}
    {parts : Object × Proposition} (ok : quantification rule quantifier premise = .ok parts) :
    premise = .quantified quantifier parts.1 parts.2 := by
  cases premise with
  | quantified quantifier' bound body =>
      unfold quantification at ok
      by_cases same : quantifier' = quantifier
      · simp only [same, if_true] at ok
        cases ok
        rw [same]
      · simp only [same, if_false] at ok
        cases ok
  | _ => cases ok

theorem not_occurs_of_notFree {bound replaced : Object} {premise : Proposition} {done : Unit}
    (ok : notFree rule bound replaced premise = .ok done) :
    bound.key = replaced.key ∨ premise.occurs bound = false := by
  unfold notFree at ok
  split at ok
  · cases ok
  · rename_i allowed
    rw [Bool.not_eq_true, Bool.and_eq_false_iff, Bool.not_eq_false', Object.beq_iff_key] at allowed
    exact allowed

theorem ok_of_modusPonens {ab a : Proposition} (ok : modusPonens ab a = .ok conclusion) :
    ∃ antecedent, ab = antecedent.implies conclusion ∧ (antecedent == a) = true := by
  obtain ⟨⟨antecedent, consequent⟩, split, ok⟩ := ok_of_bind ok
  obtain ⟨done, agrees, returned⟩ := ok_of_bind ok
  cases returned
  exact ⟨antecedent, eq_of_operands split, beq_of_agree agrees⟩

theorem ok_of_hypotheticalSyllogism {ab bc : Proposition}
    (ok : hypotheticalSyllogism ab bc = .ok conclusion) :
    ∃ a b b' c : Proposition, ab = a.implies b ∧ bc = b'.implies c ∧ (b == b') = true ∧
      conclusion = a.implies c := by
  obtain ⟨⟨a, b⟩, split, ok⟩ := ok_of_bind ok
  obtain ⟨⟨b', c⟩, split', ok⟩ := ok_of_bind ok
  obtain ⟨done, agrees, returned⟩ := ok_of_bind ok
  cases returned
  exact ⟨a, b, b', c, eq_of_operands split, eq_of_operands split', beq_of_agree agrees, rfl⟩

theorem ok_of_modusTollens {ab denial : Proposition}
    (ok : modusTollens ab denial = .ok conclusion) :
    ∃ a b : Proposition, ab = a.implies b ∧ contradicts b denial = true ∧ conclusion = a.not := by
  obtain ⟨⟨a, b⟩, split, ok⟩ := ok_of_bind ok
  obtain ⟨done, denies, returned⟩ := ok_of_bind ok
  cases returned
  exact ⟨a, b, eq_of_operands split, contradicts_of_denied denies, rfl⟩

theorem ok_of_contradiction {a denial : Proposition}
    (ok : contradiction a denial = .ok conclusion) :
    contradicts a denial = true ∧ conclusion = .falsum := by
  obtain ⟨done, denies, returned⟩ := ok_of_bind ok
  cases returned
  exact ⟨contradicts_of_denied denies, rfl⟩

theorem ok_of_equivalenceIntroduction {ab ba : Proposition}
    (ok : equivalenceIntroduction ab ba = .ok conclusion) :
    ∃ a b a' b' : Proposition, ab = a.implies b ∧ ba = b'.implies a' ∧
      (a == a') = true ∧ (b == b') = true ∧ conclusion = a.equivalent b := by
  obtain ⟨⟨a, b⟩, split, ok⟩ := ok_of_bind ok
  obtain ⟨⟨b', a'⟩, split', ok⟩ := ok_of_bind ok
  dsimp only at ok
  split at ok
  · rename_i equal
    cases ok
    have parts := Bool.and_eq_true_iff.mp equal
    exact ⟨a, b, a', b', eq_of_operands split, eq_of_operands split', parts.1, parts.2, rfl⟩
  · cases ok

theorem ok_of_equivalenceElimination {equivalence ab ba : Proposition}
    (ok : equivalenceElimination equivalence = .ok (ab, ba)) :
    ∃ a b : Proposition, equivalence = a.equivalent b ∧ ab = a.implies b ∧ ba = b.implies a := by
  obtain ⟨⟨a, b⟩, split, returned⟩ := ok_of_bind ok
  cases returned
  exact ⟨a, b, eq_of_operands split, rfl, rfl⟩

theorem ok_of_explosion {falsity a : Proposition} (ok : explosion falsity a = .ok conclusion) :
    falsity = .falsum ∧ conclusion = a := by
  unfold explosion at ok
  split at ok
  · rename_i equal
    cases ok
    cases falsity with
    | falsum => exact ⟨rfl, rfl⟩
    | _ => cases equal
  · cases ok

end Inference

/-! ## Ranges of variables -/

namespace Store

/-- The object may replace the bound variable: it lies in the set of the variable,
if that belongs to one. -/
def Admits (store : Store) (bound x : Object) : Prop :=
  bound.owner = none ∨
    ∃ set, store.domain bound = .ok (some set) ∧ store.contains set x = true

/-- The variable `inner` may replace `outer`: it belongs to a set that the set of
`outer` includes, if that belongs to one. -/
def Narrows (store : Store) (outer inner : Object) : Prop :=
  outer.owner = none ∨
    ∃ larger smaller, store.domain outer = .ok (some larger) ∧
      store.domain inner = .ok (some smaller) ∧ larger.includes smaller = true

variable {store : Store} {bound : Object} {set : Collection}

theorem owner_of_domain_none (found : store.domain bound = .ok none) : bound.owner = none := by
  unfold domain at found
  split at found
  · assumption
  · split at found <;> cases found

theorem id_of_find {id : SetId} (isFound : store.find id = some set) : set.id = id := by
  simpa using List.find?_some isFound

theorem owner_of_domain_some (found : store.domain bound = .ok (some set)) :
    bound.owner = some set.id ∧ set ∈ store.living := by
  unfold domain at found
  split at found
  · cases found
  · rename_i id isOwner
    split at found
    · rename_i set' isFound
      cases found
      exact ⟨by rw [isOwner, id_of_find isFound], List.mem_of_find?_eq_some isFound⟩
    · cases found

/-- The set of a variable is told by the variable. -/
theorem owner_of_domain {found : Option Collection} (ok : store.domain bound = .ok found) :
    bound.owner = found.map Collection.id := by
  cases found with
  | none => exact owner_of_domain_none ok
  | some set => exact (owner_of_domain_some ok).1

end Store

/-! ## The table of rules -/

namespace RuleCall

/-- The call, made in the given store, concludes the proposition. -/
inductive Yields (store : Store) : RuleCall → Proposition → Prop
  | modusPonens {ab a : Proof} {antecedent consequent : Proposition} :
      ab.conclusion = antecedent.implies consequent → (antecedent == a.conclusion) = true →
      Yields store (.modusPonens ab a) consequent
  | hypotheticalSyllogism {ab bc : Proof} {a b b' c : Proposition} :
      ab.conclusion = a.implies b → bc.conclusion = b'.implies c → (b == b') = true →
      Yields store (.hypotheticalSyllogism ab bc) (a.implies c)
  | modusTollens {ab denial : Proof} {a b : Proposition} :
      ab.conclusion = a.implies b → Inference.contradicts b denial.conclusion = true →
      Yields store (.modusTollens ab denial) a.not
  | contradiction {a denial : Proof} :
      Inference.contradicts a.conclusion denial.conclusion = true →
      Yields store (.contradiction a denial) .falsum
  | conjunction (a b : Proof) : Yields store (.conjunction a b) (a.conclusion.and b.conclusion)
  | andLeft {ab : Proof} {a b : Proposition} :
      ab.conclusion = a.and b → Yields store (.andLeft ab) a
  | andRight {ab : Proof} {a b : Proposition} :
      ab.conclusion = a.and b → Yields store (.andRight ab) b
  | commuteAnd {ab : Proof} {a b : Proposition} :
      ab.conclusion = a.and b → Yields store (.commuteAnd ab) (b.and a)
  | commuteOr {ab : Proof} {a b : Proposition} :
      ab.conclusion = a.or b → Yields store (.commuteOr ab) (b.or a)
  | disjunction (a : Proof) (b : Proposition) :
      Yields store (.disjunction a b) (a.conclusion.or b)
  | equivalenceIntroduction {ab ba : Proof} {a b a' b' : Proposition} :
      ab.conclusion = a.implies b → ba.conclusion = b'.implies a' →
      (a == a') = true → (b == b') = true →
      Yields store (.equivalenceIntroduction ab ba) (a.equivalent b)
  | equivalenceForward {equivalence : Proof} {a b : Proposition} :
      equivalence.conclusion = a.equivalent b →
      Yields store (.equivalenceElimination equivalence) (a.implies b)
  | equivalenceBackward {equivalence : Proof} {a b : Proposition} :
      equivalence.conclusion = a.equivalent b →
      Yields store (.equivalenceElimination equivalence) (b.implies a)
  | implicationToOr {ab : Proof} {a b : Proposition} :
      ab.conclusion = a.implies b → Yields store (.implicationToOr ab) (a.not.or b)
  | orToImplication {ab : Proof} {a b : Proposition} :
      ab.conclusion = a.or b → Yields store (.orToImplication ab) (a.not.implies b)
  | explosion {falsity : Proof} (a : Proposition) :
      falsity.conclusion = .falsum → Yields store (.explosion falsity a) a
  | excludedMiddle (a : Proposition) : Yields store (.excludedMiddle a) (a.or a.not)
  | nonContradiction (a : Proposition) : Yields store (.nonContradiction a) (a.and a.not).not
  | trivial (a : Proposition) : Yields store (.trivial a) (a.implies a)
  | universalResolution {all : Proof} {x y : Object} {body : Proposition} :
      all.conclusion = .quantified .universal x body → store.Admits x y →
      Yields store (.universalResolution all y) (body.substitute x y store.created).1
  | existentialResolution {existence : Proof} {x : Object} {body : Proposition} :
      existence.conclusion = .quantified .existential x body →
      Yields store (.existentialResolution existence)
        (body.substitute x (x.renamed store.created) (store.created + 1)).1
  | existentialIntroduction {instanceProof : Proof} {y x : Object} :
      x.key = y.key ∨ instanceProof.conclusion.occurs x = false →
      Yields store (.existentialIntroduction instanceProof y x)
        (.quantified .existential x (instanceProof.conclusion.substitute y x store.created).1)
  | quantifiedModusPonens {all premise : Proof} {x y : Object} {quantifier : Quantifier}
      {implication a antecedent consequent : Proposition} :
      all.conclusion = .quantified .universal x implication →
      premise.conclusion = .quantified quantifier y a →
      y.key = x.key ∨ all.conclusion.occurs y = false → store.Narrows x y →
      (implication.substitute x y store.created).1 = antecedent.implies consequent →
      (antecedent == a) = true →
      Yields store (.quantifiedModusPonens all premise) (.quantified quantifier y consequent)

theorem Yields.of_existentialResolution {store : Store} {existence : Proof}
    {conclusion : Proposition}
    (yields : (RuleCall.existentialResolution existence).Yields store conclusion) :
    ∃ x body, existence.conclusion = .quantified .existential x body ∧
      conclusion = (body.substitute x (x.renamed store.created) (store.created + 1)).1 := by
  cases yields with
  | existentialResolution isExistential => exact ⟨_, _, isExistential, rfl⟩

/-- All that the call is made on is among the first `created` objects. -/
def Precedes (created : Nat) (call : RuleCall) : Prop :=
  (∀ premise ∈ call.premises, premise.conclusion.Precedes created) ∧
    ∀ x ∈ call.objects, x.key.Precedes created

/-- The proof is one that the call, made in the given store, issues. -/
structure Issues (call : RuleCall) (store : Store) (proof : Proof) : Prop where
  yields : call.Yields store proof.conclusion
  rule : proof.rule = call.rule
  premises : proof.premises = call.premises

end RuleCall

/-! ## Issued proofs -/

namespace Kernel

variable {store after : Store}

theorem ok_of_get {read : Store} (ok : outcome get store = (.ok read, after)) :
    store = read ∧ store = after := by
  cases ok
  exact ⟨rfl, rfl⟩

theorem ok_of_substitute {p result : Proposition} {old new : Object}
    (ok : outcome (substitute p old new) store = (.ok result, after)) :
    result = (p.substitute old new store.created).1 := by
  cases ok
  rfl

theorem ok_of_domain {bound : Object} {found : Option Collection}
    (ok : outcome (domain bound) store = (.ok found, after)) :
    store.domain bound = .ok found ∧ store = after := by
  obtain ⟨read, middle, isRead, lifted⟩ := ok_of_bind ok
  obtain ⟨rfl, rfl⟩ := ok_of_get isRead
  exact ok_of_liftExcept lifted

theorem ok_of_restrict {rule : Rule} {x y : Object} {done : Unit}
    (ok : outcome (restrict rule x y) store = (.ok done, after)) :
    store.Narrows x y ∧ store = after := by
  obtain ⟨outer, middle, isOuter, ok⟩ := ok_of_bind ok
  obtain ⟨outerFound, rfl⟩ := ok_of_domain isOuter
  cases outer with
  | none =>
      cases ok
      exact ⟨.inl (Store.owner_of_domain_none outerFound), rfl⟩
  | some larger =>
      obtain ⟨inner, middle, isInner, ok⟩ := ok_of_bind ok
      obtain ⟨innerFound, rfl⟩ := ok_of_domain isInner
      cases inner with
      | none => cases ok
      | some smaller =>
          dsimp only at ok
          split at ok
          · rename_i includes
            cases ok
            exact ⟨.inr ⟨larger, smaller, outerFound, innerFound, includes⟩, rfl⟩
          · cases ok

theorem ok_of_universalResolution {all proof : Proof} {y : Object}
    (ok : outcome (universalResolution all y) store = (.ok proof, after)) :
    (RuleCall.universalResolution all y).Issues store proof := by
  obtain ⟨⟨x, body⟩, middle, split, ok⟩ := ok_of_bind ok
  obtain ⟨isUniversal, rfl⟩ := ok_of_liftExcept split
  obtain ⟨found, middle, isDomain, ok⟩ := ok_of_bind ok
  obtain ⟨isFound, rfl⟩ := ok_of_domain isDomain
  -- Both ways of passing the check end with the same substitution.
  have finish : store.Admits x y →
      outcome (do certify (← substitute body x y) .universalResolution [all]) store =
        (.ok proof, after) →
      (RuleCall.universalResolution all y).Issues store proof := by
    intro admits ok
    obtain ⟨result, middle, substituted, issued⟩ := ok_of_bind ok
    obtain ⟨isConclusion, isRule, arePremises⟩ := ok_of_certify issued
    refine ⟨?_, isRule, arePremises⟩
    rw [isConclusion, ok_of_substitute substituted]
    exact .universalResolution (Inference.eq_of_quantification isUniversal) admits
  cases found with
  | none => exact finish (.inl (Store.owner_of_domain_none isFound)) ok
  | some set =>
      obtain ⟨read, middle, isRead, ok⟩ := ok_of_bind ok
      obtain ⟨rfl, rfl⟩ := ok_of_get isRead
      split at ok
      · rename_i contains
        exact finish (.inr ⟨set, isFound, contains⟩) ok
      · cases ok

theorem ok_of_existentialResolution {existence proof : Proof} {witness : Object}
    (ok : outcome (existentialResolution existence) store = (.ok (witness, proof), after)) :
    ∃ x body, existence.conclusion = .quantified .existential x body ∧
      witness = x.renamed store.created ∧
      proof.conclusion = (body.substitute x witness (store.created + 1)).1 ∧
      proof.rule = .existentialResolution ∧ proof.premises = [existence] := by
  obtain ⟨⟨x, body⟩, middle, split, ok⟩ := ok_of_bind ok
  obtain ⟨isExistential, rfl⟩ := ok_of_liftExcept split
  obtain ⟨found, middle, isDomain, ok⟩ := ok_of_bind ok
  obtain ⟨isFound, rfl⟩ := ok_of_domain isDomain
  obtain ⟨created, middle, isCreated, ok⟩ := ok_of_bind ok
  have isWitness : created = x.renamed store.created ∧ middle.created = store.created + 1 := by
    cases isCreated
    simp [Object.renamed, Store.owner_of_domain isFound]
  obtain ⟨result, middle, substituted, ok⟩ := ok_of_bind ok
  obtain ⟨issuedProof, middle, issued, returned⟩ := ok_of_bind ok
  cases returned
  obtain ⟨isConclusion, isRule, arePremises⟩ := ok_of_certify issued
  refine ⟨x, body, Inference.eq_of_quantification isExistential, isWitness.1, ?_, isRule,
    arePremises⟩
  rw [isConclusion, ok_of_substitute substituted, isWitness.2]

theorem ok_of_existentialIntroduction {instanceProof proof : Proof} {y x : Object}
    (ok : outcome (existentialIntroduction instanceProof y x) store = (.ok proof, after)) :
    (RuleCall.existentialIntroduction instanceProof y x).Issues store proof := by
  obtain ⟨done, middle, checked, ok⟩ := ok_of_bind ok
  obtain ⟨notFree, rfl⟩ := ok_of_liftExcept checked
  obtain ⟨body, middle, substituted, issued⟩ := ok_of_bind ok
  obtain ⟨isConclusion, isRule, arePremises⟩ := ok_of_certify issued
  refine ⟨?_, isRule, arePremises⟩
  rw [isConclusion, ok_of_substitute substituted]
  exact .existentialIntroduction (Inference.not_occurs_of_notFree notFree)

theorem ok_of_quantifiedModusPonens {all premise proof : Proof}
    (ok : outcome (quantifiedModusPonens all premise) store = (.ok proof, after)) :
    (RuleCall.quantifiedModusPonens all premise).Issues store proof := by
  obtain ⟨⟨x, implication⟩, middle, split, ok⟩ := ok_of_bind ok
  obtain ⟨isUniversal, rfl⟩ := ok_of_liftExcept split
  dsimp only at ok
  split at ok
  · rename_i quantifier y a isQuantified
    obtain ⟨done, middle, checked, ok⟩ := ok_of_bind ok
    obtain ⟨notFree, rfl⟩ := ok_of_liftExcept checked
    obtain ⟨done, middle, restricted, ok⟩ := ok_of_bind ok
    obtain ⟨narrows, rfl⟩ := ok_of_restrict restricted
    obtain ⟨result, middle, substituted, ok⟩ := ok_of_bind ok
    have isResult := ok_of_substitute substituted
    split at ok
    · rename_i antecedent consequent areOperands
      obtain ⟨done, middle, checked, issued⟩ := ok_of_bind ok
      obtain ⟨agrees, rfl⟩ := ok_of_liftExcept checked
      obtain ⟨isConclusion, isRule, arePremises⟩ := ok_of_certify issued
      have isImplication : result = antecedent.implies consequent :=
        Proposition.eq_of_operands areOperands
      refine ⟨?_, isRule, arePremises⟩
      rw [isConclusion]
      exact .quantifiedModusPonens (Inference.eq_of_quantification isUniversal) isQuantified
        (Inference.not_occurs_of_notFree notFree) narrows (isResult.symm.trans isImplication)
        (Inference.beq_of_agree agrees)
    · cases ok
  · cases ok

end Kernel

namespace RuleCall

open Kernel

variable {call : RuleCall} {store after : Store} {items : List Item} {proof : Proof}

theorem issues_of_single {action : Kernel Proof}
    (issues : ∀ {proof}, outcome action store = (.ok proof, after) → call.Issues store proof)
    (ok : outcome (single .proof action) store = (.ok items, after))
    (member : .proof proof ∈ items) : call.Issues store proof := by
  obtain ⟨issued, performed, rfl⟩ := ok_of_single ok
  cases List.mem_singleton.mp member
  exact issues performed

theorem issues_of_certify {conclusion : Proposition} {middle : Store}
    (yields : call.Yields store conclusion)
    (ok : outcome (certify conclusion call.rule call.premises) middle = (.ok proof, after)) :
    call.Issues store proof := by
  obtain ⟨rfl, isRule, arePremises⟩ := ok_of_certify ok
  exact ⟨yields, isRule, arePremises⟩

theorem issues_of_conclude {attempt : Except Fault Proposition}
    (yields : ∀ {conclusion}, attempt = .ok conclusion → call.Yields store conclusion)
    (ok : outcome (conclude attempt call.rule call.premises) store = (.ok proof, after)) :
    call.Issues store proof := by
  obtain ⟨concluded, isRule, arePremises⟩ := ok_of_conclude ok
  exact ⟨yields concluded, isRule, arePremises⟩

/-- A rule whose conclusion is made of the operands of its premise. -/
theorem yields_of_operands {rule : Rule} {connective : Connective} {premise : Proposition}
    {make : Proposition → Proposition → Proposition} {conclusion : Proposition}
    (yields : ∀ {a b}, premise = .binary a connective b → call.Yields store (make a b))
    (ok : (do
      let (a, b) ← Inference.operands rule connective premise
      return make a b) = .ok conclusion) :
    call.Yields store conclusion := by
  obtain ⟨⟨a, b⟩, split, returned⟩ := Inference.ok_of_bind ok
  cases returned
  exact yields (Inference.eq_of_operands split)

theorem issues_of_perform (ok : outcome call.perform store = (.ok items, after))
    (member : .proof proof ∈ items) : call.Issues store proof := by
  cases call with
  | modusPonens ab a =>
      refine issues_of_single (issues_of_conclude fun concluded => ?_) ok member
      obtain ⟨antecedent, isImplication, agrees⟩ := Inference.ok_of_modusPonens concluded
      exact .modusPonens isImplication agrees
  | hypotheticalSyllogism ab bc =>
      refine issues_of_single (issues_of_conclude fun concluded => ?_) ok member
      obtain ⟨a, b, b', c, isFirst, isSecond, agrees, rfl⟩ :=
        Inference.ok_of_hypotheticalSyllogism concluded
      exact .hypotheticalSyllogism isFirst isSecond agrees
  | modusTollens ab denial =>
      refine issues_of_single (issues_of_conclude fun concluded => ?_) ok member
      obtain ⟨a, b, isImplication, denies, rfl⟩ := Inference.ok_of_modusTollens concluded
      exact .modusTollens isImplication denies
  | contradiction a denial =>
      refine issues_of_single (issues_of_conclude fun concluded => ?_) ok member
      obtain ⟨denies, rfl⟩ := Inference.ok_of_contradiction concluded
      exact .contradiction denies
  | conjunction a b =>
      exact issues_of_single (issues_of_certify (.conjunction a b)) ok member
  | andLeft ab =>
      exact issues_of_single (issues_of_conclude (yields_of_operands .andLeft)) ok member
  | andRight ab =>
      exact issues_of_single (issues_of_conclude (yields_of_operands .andRight)) ok member
  | commuteAnd ab =>
      exact issues_of_single (issues_of_conclude (yields_of_operands .commuteAnd)) ok member
  | commuteOr ab =>
      exact issues_of_single (issues_of_conclude (yields_of_operands .commuteOr)) ok member
  | disjunction a b =>
      exact issues_of_single (issues_of_certify (.disjunction a b)) ok member
  | equivalenceIntroduction ab ba =>
      refine issues_of_single (issues_of_conclude fun concluded => ?_) ok member
      obtain ⟨a, b, a', b', isForward, isBackward, agree, agree', rfl⟩ :=
        Inference.ok_of_equivalenceIntroduction concluded
      exact .equivalenceIntroduction isForward isBackward agree agree'
  | equivalenceElimination equivalence =>
      obtain ⟨⟨forward, backward⟩, middle, eliminated, returned⟩ := ok_of_bind ok
      cases returned
      obtain ⟨⟨ab, ba⟩, middle, lifted, eliminated⟩ := ok_of_bind eliminated
      obtain ⟨concluded, rfl⟩ := ok_of_liftExcept lifted
      obtain ⟨first, middle, firstIssued, eliminated⟩ := ok_of_bind eliminated
      obtain ⟨second, middle, secondIssued, returned⟩ := ok_of_bind eliminated
      cases returned
      obtain ⟨a, b, isEquivalence, rfl, rfl⟩ :=
        Inference.ok_of_equivalenceElimination concluded
      rcases List.mem_cons.mp member with isFirst | isSecond
      · cases isFirst
        exact issues_of_certify (.equivalenceForward isEquivalence) firstIssued
      · cases List.mem_singleton.mp isSecond
        exact issues_of_certify (.equivalenceBackward isEquivalence) secondIssued
  | implicationToOr ab =>
      exact issues_of_single (issues_of_conclude (yields_of_operands .implicationToOr)) ok member
  | orToImplication ab =>
      exact issues_of_single (issues_of_conclude (yields_of_operands .orToImplication)) ok member
  | explosion falsity a =>
      refine issues_of_single (issues_of_conclude fun concluded => ?_) ok member
      obtain ⟨isFalsum, rfl⟩ := Inference.ok_of_explosion concluded
      exact .explosion _ isFalsum
  | excludedMiddle a =>
      exact issues_of_single (issues_of_certify (.excludedMiddle a)) ok member
  | nonContradiction a =>
      exact issues_of_single (issues_of_certify (.nonContradiction a)) ok member
  | trivial a =>
      exact issues_of_single (issues_of_certify (.trivial a)) ok member
  | universalResolution all y =>
      exact issues_of_single ok_of_universalResolution ok member
  | existentialResolution existence =>
      obtain ⟨⟨witness, issued⟩, middle, resolved, returned⟩ := ok_of_bind ok
      cases returned
      rcases List.mem_cons.mp member with isWitness | isProof
      · cases isWitness
      · cases List.mem_singleton.mp isProof
        obtain ⟨x, body, isExistential, rfl, isConclusion, isRule, arePremises⟩ :=
          ok_of_existentialResolution resolved
        refine ⟨?_, isRule, arePremises⟩
        rw [isConclusion]
        exact .existentialResolution isExistential
  | existentialIntroduction instanceProof y x =>
      exact issues_of_single ok_of_existentialIntroduction ok member
  | quantifiedModusPonens all premise =>
      exact issues_of_single ok_of_quantifiedModusPonens ok member

end RuleCall

end Deduction
