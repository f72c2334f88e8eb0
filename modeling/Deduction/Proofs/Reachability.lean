import Deduction.Proofs.Creation

/-! # Reachable runs

Whatever calls a run consists of, all objects that its store and the values held in
it refer to are among those created so far. -/

namespace Deduction

open Session (Item)

/-! ## Rules -/

namespace Kernel

variable {roster : List Object} {among : Object → Prop}

theorem within_of_quantification {rule : Rule} {quantifier : Quantifier} {premise : Proposition}
    {parts : Object × Proposition} (within : premise.Within among)
    (ok : Inference.quantification rule quantifier premise = .ok parts) :
    parts.1.Within among ∧ parts.2.Within among := by
  rw [Inference.eq_of_quantification ok] at within
  exact Proposition.within_quantified.mp within

theorem keeps_equivalenceElimination {equivalence : Proof}
    (within : equivalence.Within (· ∈ roster)) :
    Keeps roster (equivalenceElimination equivalence) fun later issued =>
      issued.1.Within (· ∈ later) ∧ issued.2.Within (· ∈ later) := by
  have premisesWithin : ∀ {later}, roster <+: later → ∀ premise ∈ [equivalence],
      premise.Within (· ∈ later) := by
    intro later le premise member
    rw [List.mem_singleton.mp member]
    exact within.mono le.subset
  have split : Keeps roster (liftExcept (Inference.equivalenceElimination equivalence.conclusion))
      fun later parts => parts.1.Within (· ∈ later) ∧ parts.2.Within (· ∈ later) := by
    refine keeps_liftExcept ?_
    rintro ⟨ab, ba⟩ later ok le
    obtain ⟨a, b, isEquivalence, rfl, rfl⟩ := Inference.ok_of_equivalenceElimination ok
    have both := within.conclusion.mono le.subset
    rw [isEquivalence] at both
    have parts := Proposition.within_binary.mp both
    exact ⟨Proposition.within_binary.mpr parts, Proposition.within_binary.mpr parts.symm⟩
  refine keeps_bind split ?_
  rintro later ⟨ab, ba⟩ le ⟨abWithin, baWithin⟩
  refine keeps_bind (keeps_certify abWithin .equivalenceElimination (premisesWithin le)) ?_
  intro later' forward le' forwardWithin
  refine keeps_bind (keeps_certify (baWithin.mono le'.subset) .equivalenceElimination
    (premisesWithin (le.trans le'))) ?_
  intro later'' backward le'' backwardWithin
  exact keeps_pure fun le =>
    ⟨forwardWithin.mono (le''.trans le).subset, backwardWithin.mono le.subset⟩

theorem keeps_universalResolution {all : Proof} {y : Object} (allWithin : all.Within (· ∈ roster))
    (yWithin : y.Within (· ∈ roster)) :
    Keeps roster (universalResolution all y) fun later proof => proof.Within (· ∈ later) := by
  refine keeps_bind (keeps_liftExcept fun ok le =>
    within_of_quantification (allWithin.conclusion.mono le.subset) ok) ?_
  rintro later ⟨x, body⟩ le ⟨_, bodyWithin⟩
  have finish : ∀ {present}, later <+: present →
      Keeps present (do certify (← substitute body x y) .universalResolution [all])
        fun later proof => proof.Within (· ∈ later) := by
    intro present le'
    refine keeps_bind (keeps_substitute (bodyWithin.mono le'.subset)
      (yWithin.mono (le.trans le').subset)) ?_
    intro later' result le'' resultWithin
    refine keeps_certify resultWithin .universalResolution fun premise member => ?_
    rw [List.mem_singleton.mp member]
    exact allWithin.mono (le.trans (le'.trans le'')).subset
  refine keeps_bind (keeps_domain x) ?_
  intro later' found le' _
  cases found with
  | none => exact finish le'
  | some set =>
      refine keeps_bind keeps_get ?_
      intro later'' store le'' _
      split
      · exact finish (le'.trans le'')
      · exact keeps_throw

theorem keeps_existentialResolution {existence : Proof} (within : existence.Within (· ∈ roster)) :
    Keeps roster (existentialResolution existence) fun later resolved =>
      resolved.1.Within (· ∈ later) ∧ resolved.2.Within (· ∈ later) := by
  refine keeps_bind (keeps_liftExcept fun ok le =>
    within_of_quantification (within.conclusion.mono le.subset) ok) ?_
  rintro later ⟨x, body⟩ le ⟨_, bodyWithin⟩
  refine keeps_bind (keeps_domain x) ?_
  intro later' found le' _
  refine keeps_bind (keeps_create _ _ (.inl rfl) fun _ member => nomatch member) ?_
  intro later'' witness le'' witnessWithin
  refine keeps_bind (keeps_substitute (bodyWithin.mono (le'.trans le'').subset) witnessWithin) ?_
  intro created result resultLe resultWithin
  have premisesWithin : ∀ premise ∈ [existence], premise.Within (· ∈ created) := by
    intro premise member
    rw [List.mem_singleton.mp member]
    exact within.mono (le.trans (le'.trans (le''.trans resultLe))).subset
  refine keeps_bind (keeps_certify resultWithin .existentialResolution premisesWithin) ?_
  intro issued proof issuedLe proofWithin
  exact keeps_pure fun le =>
    ⟨witnessWithin.mono (resultLe.trans (issuedLe.trans le)).subset, proofWithin.mono le.subset⟩

theorem keeps_existentialIntroduction {instanceProof : Proof} {y x : Object}
    (within : instanceProof.Within (· ∈ roster)) (xWithin : x.Within (· ∈ roster)) :
    Keeps roster (existentialIntroduction instanceProof y x) fun later proof =>
      proof.Within (· ∈ later) := by
  refine keeps_bind (keeps_liftExcept fun _ _ => True.intro) ?_
  intro later _ le _
  refine keeps_bind (keeps_substitute (within.conclusion.mono le.subset)
    (xWithin.mono le.subset)) ?_
  intro later' body le' bodyWithin
  refine keeps_certify (Proposition.within_quantified.mpr
    ⟨xWithin.mono (le.trans le').subset, bodyWithin⟩) .existentialIntroduction
      fun premise member => ?_
  rw [List.mem_singleton.mp member]
  exact within.mono (le.trans le').subset

theorem keeps_quantifiedModusPonens {all premise : Proof} (allWithin : all.Within (· ∈ roster))
    (premiseWithin : premise.Within (· ∈ roster)) :
    Keeps roster (quantifiedModusPonens all premise) fun later proof =>
      proof.Within (· ∈ later) := by
  refine keeps_bind (keeps_liftExcept fun ok le =>
    within_of_quantification (allWithin.conclusion.mono le.subset) ok) ?_
  rintro later ⟨x, implication⟩ le ⟨_, implicationWithin⟩
  dsimp only
  split
  · rename_i quantifier y a isQuantified
    have partsWithin := premiseWithin.conclusion
    rw [isQuantified, Proposition.within_quantified] at partsWithin
    refine keeps_bind (keeps_liftExcept fun _ _ => True.intro) ?_
    intro later' _ le' _
    refine keeps_bind (keeps_restrict _ x y) ?_
    intro later'' _ le'' _
    refine keeps_bind (keeps_substitute (implicationWithin.mono (le'.trans le'').subset)
      (partsWithin.1.mono (le.trans (le'.trans le'')).subset)) ?_
    intro substituted result resultLe resultWithin
    split
    · rename_i antecedent consequent areOperands
      rw [Proposition.eq_of_operands areOperands, Proposition.within_binary] at resultWithin
      refine keeps_bind (keeps_liftExcept fun _ _ => True.intro) ?_
      intro agreed _ issuedLe _
      have advances := (le.trans (le'.trans (le''.trans (resultLe.trans issuedLe)))).subset
      refine keeps_certify (Proposition.within_quantified.mpr
        ⟨partsWithin.1.mono advances, resultWithin.2.mono issuedLe.subset⟩) _ fun other member => ?_
      rcases List.mem_cons.mp member with rfl | isPremise
      · exact allWithin.mono advances
      · rw [List.mem_singleton.mp isPremise]
        exact premiseWithin.mono advances
    · exact keeps_throw
  · exact keeps_throw

theorem keeps_single {α : Type} {wrap : α → Item} {action : Kernel α}
    (keeps : Keeps roster action fun later a => (wrap a).Within (· ∈ later)) :
    Keeps roster (single wrap action) fun later items =>
      ∀ item ∈ items, item.Within (· ∈ later) := by
  refine keeps_bind keeps ?_
  intro later a _ within
  refine keeps_pure fun le item member => ?_
  rw [List.mem_singleton.mp member]
  exact Item.Within.mono le.subset within

/-- The conclusion of a rule that takes its premise apart. -/
theorem within_of_operands {rule : Rule} {connective : Connective} {premise : Proposition}
    {make : Proposition → Proposition → Proposition}
    (made : ∀ {a b}, a.Within among → b.Within among → (make a b).Within among)
    (within : premise.Within among) {conclusion : Proposition}
    (ok : (do
      let (a, b) ← Inference.operands rule connective premise
      return make a b) = .ok conclusion) : conclusion.Within among := by
  obtain ⟨⟨a, b⟩, split, returned⟩ := Inference.ok_of_bind ok
  cases returned
  rw [Inference.eq_of_operands split, Proposition.within_binary] at within
  exact made within.1 within.2

end Kernel

/-! ## Calls -/

open Kernel

theorem RuleCall.within_of_operands {call : RuleCall} {among : Object → Prop}
    (within : ∀ item ∈ call.operands, item.Within among) :
    (∀ premise ∈ call.premises, premise.Within among) ∧
      (∀ statement ∈ call.statements, statement.Within among) ∧
      ∀ x ∈ call.objects, x.Within among := by
  refine ⟨?_, ?_, ?_⟩
  · intro premise member
    exact within (.proof premise)
      (List.mem_append_left _ (List.mem_append_left _ (List.mem_map_of_mem member)))
  · intro statement member
    exact within (.proposition statement)
      (List.mem_append_left _ (List.mem_append_right _ (List.mem_map_of_mem member)))
  · intro x member
    exact within (.object x) (List.mem_append_right _ (List.mem_map_of_mem member))

theorem RuleCall.keeps_perform {call : RuleCall} {roster : List Object}
    (within : ∀ item ∈ call.operands, item.Within (· ∈ roster)) :
    Keeps roster call.perform fun later items => ∀ item ∈ items, item.Within (· ∈ later) := by
  obtain ⟨premises, statements, objects⟩ := within_of_operands within
  have first : ∀ {p rest}, call.premises = p :: rest → p.conclusion.Within (· ∈ roster) :=
    fun are => (premises _ (are ▸ List.mem_cons_self)).conclusion
  have second : ∀ {p q rest}, call.premises = p :: q :: rest → q.conclusion.Within (· ∈ roster) :=
    fun are => (premises _ (are ▸ List.mem_cons_of_mem _ List.mem_cons_self)).conclusion
  cases call with
  | modusPonens ab a =>
      refine keeps_single (keeps_conclude (fun ok => ?_) _ premises)
      obtain ⟨antecedent, isImplication, _⟩ := Inference.ok_of_modusPonens ok
      have both := first rfl
      rw [isImplication] at both
      exact (Proposition.within_binary.mp both).2
  | hypotheticalSyllogism ab bc =>
      refine keeps_single (keeps_conclude (fun ok => ?_) _ premises)
      obtain ⟨a, b, b', c, isFirst, isSecond, _, rfl⟩ := Inference.ok_of_hypotheticalSyllogism ok
      have ofFirst := first rfl
      have ofSecond := second rfl
      rw [isFirst] at ofFirst
      rw [isSecond] at ofSecond
      exact Proposition.within_binary.mpr
        ⟨(Proposition.within_binary.mp ofFirst).1, (Proposition.within_binary.mp ofSecond).2⟩
  | modusTollens ab denial =>
      refine keeps_single (keeps_conclude (fun ok => ?_) _ premises)
      obtain ⟨a, b, isImplication, _, rfl⟩ := Inference.ok_of_modusTollens ok
      have both := first rfl
      rw [isImplication] at both
      exact Proposition.within_not.mpr (Proposition.within_binary.mp both).1
  | contradiction a denial =>
      refine keeps_single (keeps_conclude (fun ok => ?_) _ premises)
      obtain ⟨_, rfl⟩ := Inference.ok_of_contradiction ok
      exact Proposition.within_falsum
  | conjunction a b =>
      exact keeps_single (keeps_certify
        (Proposition.within_binary.mpr ⟨first rfl, second rfl⟩) _ premises)
  | andLeft ab =>
      exact keeps_single (keeps_conclude
        (Kernel.within_of_operands (fun ofA _ => ofA) (first rfl)) _ premises)
  | andRight ab =>
      exact keeps_single (keeps_conclude
        (Kernel.within_of_operands (fun _ ofB => ofB) (first rfl)) _ premises)
  | commuteAnd ab =>
      exact keeps_single (keeps_conclude (Kernel.within_of_operands
        (fun ofA ofB => Proposition.within_binary.mpr ⟨ofB, ofA⟩) (first rfl)) _ premises)
  | commuteOr ab =>
      exact keeps_single (keeps_conclude (Kernel.within_of_operands
        (fun ofA ofB => Proposition.within_binary.mpr ⟨ofB, ofA⟩) (first rfl)) _ premises)
  | disjunction a b =>
      exact keeps_single (keeps_certify (Proposition.within_binary.mpr
        ⟨first rfl, statements b List.mem_cons_self⟩) _ premises)
  | equivalenceIntroduction ab ba =>
      refine keeps_single (keeps_conclude (fun ok => ?_) _ premises)
      obtain ⟨a, b, a', b', isForward, _, _, _, rfl⟩ := Inference.ok_of_equivalenceIntroduction ok
      have both := first rfl
      rw [isForward] at both
      exact Proposition.within_binary.mpr (Proposition.within_binary.mp both)
  | equivalenceElimination equivalence =>
      refine keeps_bind (keeps_equivalenceElimination (premises equivalence List.mem_cons_self)) ?_
      rintro later ⟨forward, backward⟩ _ ⟨forwardWithin, backwardWithin⟩
      refine keeps_pure fun le item member => ?_
      rcases List.mem_cons.mp member with rfl | isSecond
      · exact forwardWithin.mono le.subset
      · rw [List.mem_singleton.mp isSecond]
        exact backwardWithin.mono le.subset
  | implicationToOr ab =>
      exact keeps_single (keeps_conclude (Kernel.within_of_operands (fun ofA ofB =>
        Proposition.within_binary.mpr ⟨Proposition.within_not.mpr ofA, ofB⟩) (first rfl))
        _ premises)
  | orToImplication ab =>
      exact keeps_single (keeps_conclude (Kernel.within_of_operands (fun ofA ofB =>
        Proposition.within_binary.mpr ⟨Proposition.within_not.mpr ofA, ofB⟩) (first rfl))
        _ premises)
  | explosion falsity a =>
      refine keeps_single (keeps_conclude (fun ok => ?_) _ premises)
      obtain ⟨_, rfl⟩ := Inference.ok_of_explosion ok
      exact statements _ List.mem_cons_self
  | excludedMiddle a =>
      have ofA := statements a List.mem_cons_self
      exact keeps_single (keeps_certify
        (Proposition.within_binary.mpr ⟨ofA, Proposition.within_not.mpr ofA⟩) _ premises)
  | nonContradiction a =>
      have ofA := statements a List.mem_cons_self
      exact keeps_single (keeps_certify (Proposition.within_not.mpr
        (Proposition.within_binary.mpr ⟨ofA, Proposition.within_not.mpr ofA⟩)) _ premises)
  | trivial a =>
      have ofA := statements a List.mem_cons_self
      exact keeps_single (keeps_certify (Proposition.within_binary.mpr ⟨ofA, ofA⟩) _ premises)
  | universalResolution all y =>
      exact keeps_single (keeps_universalResolution (premises all List.mem_cons_self)
        (objects y List.mem_cons_self))
  | existentialResolution existence =>
      refine keeps_bind (keeps_existentialResolution (premises existence List.mem_cons_self)) ?_
      rintro later ⟨witness, proof⟩ _ ⟨witnessWithin, proofWithin⟩
      refine keeps_pure fun le item member => ?_
      rcases List.mem_cons.mp member with rfl | isSecond
      · exact witnessWithin.mono le.subset
      · rw [List.mem_singleton.mp isSecond]
        exact proofWithin.mono le.subset
  | existentialIntroduction instanceProof y x =>
      exact keeps_single (keeps_existentialIntroduction (premises instanceProof List.mem_cons_self)
        (objects x (List.mem_cons_of_mem _ List.mem_cons_self)))
  | quantifiedModusPonens all premise =>
      exact keeps_single (keeps_quantifiedModusPonens (premises all List.mem_cons_self)
        (premises premise (List.mem_cons_of_mem _ List.mem_cons_self)))

theorem Bindings.within_of_operands {bindings : Bindings} {among : Object → Prop}
    (within : ∀ item ∈ bindings.operands, item.Within among) :
    ∀ binding ∈ bindings.present, binding.2.Within among :=
  fun _ member => Argument.within_item.mp (within _ (List.mem_map_of_mem member))

theorem Mapping.within_of_operands {mapping : Mapping} {among : Object → Prop}
    (within : ∀ item ∈ mapping.operands, item.Within among) :
    ∀ x ∈ mapping.objects, x.Within among := by
  intro x member
  cases mapping with
  | onDemand => cases member
  | plus summand =>
      cases List.mem_singleton.mp member
      exact within (.object x) List.mem_cons_self
  | minus subtrahend =>
      cases List.mem_singleton.mp member
      exact within (.object x) List.mem_cons_self
  | constant value =>
      cases List.mem_singleton.mp member
      exact within (.object x) List.mem_cons_self
  | identity => cases member
  | pair => cases member
  | compose outer inner =>
      rcases List.mem_append.mp member with inOuter | inInner
      · exact within (.set outer) List.mem_cons_self x inOuter
      · exact within (.set inner) (List.mem_cons_of_mem _ List.mem_cons_self) x inInner

theorem Call.keeps_perform {call : Call} {roster : List Object}
    (within : ∀ item ∈ call.operands, item.Within (· ∈ roster)) :
    Keeps roster call.perform fun later items => ∀ item ∈ items, item.Within (· ∈ later) := by
  -- The operands of a call are named by their place.
  have first : ∀ {item rest}, call.operands = item :: rest → item.Within (· ∈ roster) :=
    fun are => within _ (are ▸ List.mem_cons_self)
  have second : ∀ {item other rest}, call.operands = item :: other :: rest →
      other.Within (· ∈ roster) :=
    fun are => within _ (are ▸ List.mem_cons_of_mem _ List.mem_cons_self)
  have others : ∀ {item rest}, call.operands = item :: rest → ∀ other ∈ rest,
      other.Within (· ∈ roster) :=
    fun are other member => within other (are ▸ List.mem_cons_of_mem _ member)
  have noComponents : ∀ x ∈ ([] : List Object), x.Within (· ∈ roster) :=
    fun _ member => nomatch member
  cases call with
  | object name => exact keeps_single (keeps_create _ _ (.inl rfl) noComponents)
  | objectIn name set => exact keeps_single (keeps_create _ _ (.inl rfl) noComponents)
  | tuple components =>
      exact keeps_single (keeps_create _ _ (.inr rfl) fun x member =>
        within (.object x) (List.mem_map_of_mem member))
  | calculate operation left right => exact keeps_single (keeps_calculate operation left right)
  | plainSet name => exact keeps_single (keeps_form fun _ _ member => nomatch member)
  | productSet name factors =>
      refine keeps_single (keeps_form fun _ x member => ?_)
      obtain ⟨factor, factorMember, inFactor⟩ := Collection.mem_objectsOfAll.mp member
      exact within (.set factor) (List.mem_map_of_mem factorMember) x inFactor
  | functionSet name domain range mapping =>
      refine keeps_single (keeps_form fun _ x member => ?_)
      rcases List.mem_append.mp member with inSets | inMapping
      · rcases List.mem_append.mp inSets with inDomain | inRange
        · exact first rfl x inDomain
        · exact second rfl x inRange
      · exact Mapping.within_of_operands (fun item itemMember =>
          others rfl item (List.mem_cons_of_mem _ itemMember)) x inMapping
  | numberSets =>
      refine keeps_bind keeps_numberSets ?_
      rintro later numbers _ ⟨naturals, rationals, reals⟩
      refine keeps_pure fun le item member => ?_
      simp only [List.mem_cons, List.not_mem_nil, or_false] at member
      rcases member with rfl | rfl | rfl
      · exact naturals.mono le.subset
      · exact rationals.mono le.subset
      · exact reals.mono le.subset
  | literal numbers name =>
      refine keeps_bind (keeps_literal numbers name) ?_
      intro later found _ foundWithin
      refine keeps_pure fun le item member => ?_
      obtain ⟨x, isX, rfl⟩ := Option.map_eq_some_iff.mp (Option.mem_toList.mp member)
      exact (foundWithin x isX).mono le.subset
  | insert set x =>
      refine keeps_bind (keeps_insert set (second rfl)) ?_
      intro later _ _ _
      exact keeps_pure fun _ _ member => nomatch member
  | enumerate set => exact keeps_single (keeps_enumerate set)
  | take number cursor =>
      refine keeps_bind (keeps_take number (first rfl)) ?_
      rintro later ⟨objects, rest⟩ _ ⟨objectsWithin, restWithin⟩
      refine keeps_pure fun le item member => ?_
      rcases List.mem_cons.mp member with rfl | inObjects
      · exact restWithin.mono le.subset
      · obtain ⟨x, xMember, rfl⟩ := List.mem_map.mp inObjects
        exact (objectsWithin x xMember).mono le.subset
  | apply function x => exact keeps_single (keeps_apply function (first rfl) (second rfl))
  | substitute p old new =>
      exact keeps_single (keeps_substitute (first rfl)
        (others rfl (.object new) (List.mem_cons_of_mem _ List.mem_cons_self)))
  | applySchema schema bindings assert =>
      exact keeps_single (keeps_applySchema (first rfl)
        (Bindings.within_of_operands (others rfl)) assert)
  | applyReduction reduction bindings assert =>
      exact keeps_single (keeps_applyReduction (first rfl)
        (Bindings.within_of_operands (others rfl)) assert)
  | instantiate schema bindings =>
      exact keeps_single (keeps_instantiate (first rfl) (Bindings.within_of_operands (others rfl)))
  | assume schema bindings =>
      exact keeps_single (keeps_assume (first rfl) (Bindings.within_of_operands (others rfl)))
  | assertedProof reduction => exact keeps_single (keeps_assertedProof (first rfl))
  | proveMembership statement => exact keeps_single (keeps_proveMembership (first rfl))
  | proveOrdering statement => exact keeps_single (keeps_proveOrdering (first rfl))
  | rule call => exact RuleCall.keeps_perform within

/-! ## Runs -/

namespace Run

variable {run : Run}

theorem ok_of_mem_results {call : Call} {item : Item} (member : item ∈ run.results call) :
    ∃ items, outcome call.perform run.store = (.ok items, (run.after call).store) ∧
      run.results call = items := by
  unfold results at member ⊢
  unfold after
  rcases performed : outcome call.perform run.store with ⟨fault | items, store⟩
  · rw [performed] at member
    cases member
  · exact ⟨items, rfl, rfl⟩

/-- The roster lists the objects created so far, and the run holds no others. -/
structure Lists (roster : List Object) (run : Run) : Prop where
  store : run.store.Lists roster
  results : ∀ entry ∈ run.history, ∀ item ∈ entry.results, item.Within (· ∈ roster)

theorem Lists.within {roster : List Object} (lists : run.Lists roster) {item : Item}
    (held : run.Holds item) : item.Within (· ∈ roster) :=
  held.within lists.store.within lists.results

theorem Lists.extend {roster later : List Object} (lists : run.Lists roster) {call : Call}
    (advances : roster <+: later) (ofStore : (run.after call).store.Lists later)
    (ofResults : ∀ item ∈ run.results call, item.Within (· ∈ later)) :
    (run.after call).Lists later := by
  refine ⟨ofStore, ?_⟩
  intro entry entryMember item member
  rcases List.mem_cons.mp entryMember with rfl | isOld
  · exact ofResults item member
  · exact (lists.results entry isOld item member).mono advances.subset

theorem Lists.after {roster : List Object} (lists : run.Lists roster) {call : Call}
    (held : ∀ item ∈ call.operands, run.Holds item) :
    ∃ objects, Kernel.Creates call.perform run.store objects ∧
      (run.after call).Lists (roster ++ objects) := by
  have keeps := Call.keeps_perform fun item member => lists.within (held item member)
  rcases keeps.lists (List.prefix_refl roster) lists.store with
    ⟨objects, creates, ofStore, returns⟩
  refine ⟨objects, creates, lists.extend (List.prefix_append roster objects) ofStore ?_⟩
  intro item member
  rcases ok_of_mem_results member with ⟨items, performed, areResults⟩
  have isOk : (outcome call.perform run.store).1 = .ok items := by rw [performed]
  exact returns items isOk item (areResults ▸ member)

theorem Lists.release {roster : List Object} (lists : run.Lists roster) (isKept : SetId → Bool) :
    (run.release isKept).Lists roster := by
  refine ⟨⟨lists.store.numbered, ?_, lists.store.within.members, lists.store.within.images⟩,
    lists.results⟩
  exact fun set member => lists.store.within.living set (List.mem_filter.mp member).1

/-- The objects that the calls of a run created, in order. -/
inductive Creates : Run → List Object → Prop
  | start : Creates start []
  | after {run : Run} {call : Call} {objects others : List Object} :
      Creates run objects → Kernel.Creates call.perform run.store others →
      Creates (run.after call) (objects ++ others)
  | release {run : Run} {objects : List Object} (isKept : SetId → Bool) :
      Creates run objects → Creates (run.release isKept) objects

theorem Creates.numbered {objects : List Object} (creates : run.Creates objects) :
    Object.Numbered 0 objects run.store.created := by
  induction creates with
  | start => exact .nil 0
  | after _ performed induction => exact induction.append performed.numbered
  | release isKept _ induction => exact induction

theorem Reachable.exists_roster (reachable : run.Reachable) :
    ∃ roster, run.Creates roster ∧ run.Lists roster := by
  induction reachable with
  | start =>
      refine ⟨[], .start, ⟨.nil 0, ?_, ?_, ?_⟩, ?_⟩
      · exact fun set member => nomatch member
      · exact fun set x member => nomatch member
      · exact fun function input image isImage => nomatch isImage
      · exact fun entry member => nomatch member
  | after _ held induction =>
      rcases induction with ⟨roster, creates, lists⟩
      rcases lists.after held with ⟨objects, performed, lists'⟩
      exact ⟨roster ++ objects, .after creates performed, lists'⟩
  | release isKept _ induction =>
      rcases induction with ⟨roster, creates, lists⟩
      exact ⟨roster, .release isKept creates, lists.release isKept⟩

theorem Reachable.created_le_after (reachable : run.Reachable) {call : Call}
    (held : ∀ item ∈ call.operands, run.Holds item) :
    run.store.created ≤ (run.after call).store.created := by
  rcases reachable.exists_roster with ⟨roster, _, lists⟩
  rcases lists.after held with ⟨objects, performed, _⟩
  exact performed.numbered.le

theorem Reachable.created_all (reachable : run.Reachable) :
    run.store.Within (·.id ≤ run.store.created) ∧
      ∀ entry ∈ run.history, ∀ item ∈ entry.results, item.Within (·.id ≤ run.store.created) := by
  rcases reachable.exists_roster with ⟨roster, _, lists⟩
  have counted : ∀ ⦃x⦄, x ∈ roster → x.id ≤ run.store.created :=
    fun _ member => lists.store.numbered.id_le member
  exact ⟨lists.store.within.mono counted,
    fun entry isEntry item member => (lists.results entry isEntry item member).mono counted⟩

/-- All that a caller holds is made of objects that have been created. -/
theorem Reachable.within (reachable : run.Reachable) {item : Item} (held : run.Holds item) :
    item.Within (·.id ≤ run.store.created) :=
  held.within reachable.created_all.1 reachable.created_all.2

theorem Reachable.precedes_of_held (reachable : run.Reachable) {call : RuleCall}
    (held : ∀ item ∈ call.operands, run.Holds item) : call.Precedes run.store.created := by
  obtain ⟨premisesWithin, _, objectsWithin⟩ :=
    RuleCall.within_of_operands fun item member => reachable.within (held item member)
  exact ⟨fun premise member => (premisesWithin premise member).conclusion.precedes,
    fun x member => (objectsWithin x member).precedes⟩

end Run

end Deduction
