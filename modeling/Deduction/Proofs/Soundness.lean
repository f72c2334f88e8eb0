import Deduction.Proofs.Provenance
import Deduction.Proofs.RuleSoundness

/-! # Soundness

What a run proves is true wherever the grounds of the proofs are, when all bound
variables range over the whole domain. The values of the witnesses of existences
are not given beforehand: they are chosen in the order in which the witnesses were
created. It follows that nothing false is proved without assertions. -/

namespace Deduction

open Session (Item)

universe u

variable {D : Type u}

/-- A property of proofs that passes from the premises to what they support. -/
theorem Proof.premises_induction {motive : Proof → Prop}
    (step : ∀ proof : Proof, (∀ premise ∈ proof.premises, motive premise) → motive proof) :
    ∀ proof, motive proof
  | ⟨serial, conclusion, rule, premises⟩ =>
      step ⟨serial, conclusion, rule, premises⟩ fun premise member =>
        have : sizeOf premise < sizeOf premises := List.sizeOf_lt_of_mem member
        premises_induction step premise

namespace Run

/-- The object was introduced as the witness of an existence by a node of the tree. -/
def WitnessIn (run : Run) (proof : Proof) (witness : Object) : Prop :=
  ∃ node : Proof, node.IsNodeOf proof ∧ (witness, node) ∈ run.resolutions

/-! ## Values of witnesses -/

/-- The value of a new witness does not matter for what was said before. -/
theorem holds_update_witness {I : Interpretation D} {values : Assignment D} {p : Proposition}
    {created : Nat} (precedes : p.Precedes created) (x : Object) (d : D) :
    I.Holds (Function.update values (x.renamed created).key d) p ↔ I.Holds values p := by
  apply I.holds_update_of_not_occurs
  rw [Bool.eq_false_iff]
  intro occurs
  exact (precedes.of_occurs occurs).ne_next (Object.key_renamed x created)

/-- There are values for the witnesses with which every resolution leads from truth
to truth. -/
theorem Chronological.exists_values {limit : Nat} {resolutions : List (Object × Proof)}
    (chronological : Chronological limit resolutions) (I : Interpretation D)
    (values : Assignment D) :
    ∃ values' : Assignment D,
      (∀ key, (∀ resolution ∈ resolutions, key ≠ resolution.1.key) → values' key = values key) ∧
      ∀ resolution ∈ resolutions,
        (∀ premise ∈ resolution.2.premises, I.Holds values' premise.conclusion) →
        I.Holds values' resolution.2.conclusion := by
  induction chronological with
  | nil limit => exact ⟨values, fun _ _ => rfl, fun _ member => nomatch member⟩
  | @cons limit created witness proof earlier resolves createdLe precedes chronological induction =>
      obtain ⟨before, differs, holdsBefore⟩ := induction
      cases resolves with
      | @intro _ existence x body arePremises isExistential existencePrecedes isConclusion =>
          -- The witness gets a value of the kind that there is, if there is one.
          obtain ⟨d, chosen⟩ : ∃ d, I.Holds before existence.conclusion →
              I.Holds (Function.update before (x.renamed created).key d) proof.conclusion := by
            by_cases isTrue : I.Holds before existence.conclusion
            · rw [isExistential] at isTrue existencePrecedes
              obtain ⟨d, _, holds⟩ :=
                Interpretation.holds_of_existentialResolution existencePrecedes isTrue
              exact ⟨d, fun _ => isConclusion ▸ holds⟩
            · exact ⟨before x.key, fun holds => absurd holds isTrue⟩
          refine ⟨Function.update before (x.renamed created).key d, ?_, ?_⟩
          · intro key notWitness
            rw [Function.update_of_ne (notWitness _ List.mem_cons_self)]
            exact differs key fun resolution member =>
              notWitness resolution (List.mem_cons_of_mem _ member)
          · intro resolution member premisesHold
            rcases List.mem_cons.mp member with rfl | isEarlier
            · apply chosen
              rw [← holds_update_witness existencePrecedes x d]
              exact premisesHold existence (arePremises ▸ List.mem_cons_self)
            · obtain ⟨premisesPrecede, conclusionPrecedes⟩ := chronological.precedes isEarlier
              rw [holds_update_witness conclusionPrecedes]
              refine holdsBefore resolution isEarlier fun premise premiseMember => ?_
              rw [← holds_update_witness (premisesPrecede premise premiseMember) x d]
              exact premisesHold premise premiseMember

/-! ## Trees -/

variable {run : Run} {I : Interpretation D} {values : Assignment D}

/-- Truth passes through the tree from its grounds to its root. -/
theorem holds_of_explained (unrestricted : I.Unrestricted) {proof : Proof}
    (explained : ∀ node : Proof, node.IsNodeOf proof → run.Explains node)
    (grounds : ∀ node : Proof, node.IsNodeOf proof → node.rule.isGround = true →
      I.Holds values node.conclusion)
    (resolved : ∀ node : Proof, node.IsNodeOf proof → node.rule = .existentialResolution →
      (∀ premise ∈ node.premises, I.Holds values premise.conclusion) →
      I.Holds values node.conclusion) :
    ∀ node : Proof, node.IsNodeOf proof → I.Holds values node.conclusion := by
  induction proof using Proof.premises_induction with
  | step proof induction =>
      have ofPremises : ∀ premise ∈ proof.premises, ∀ node : Proof, node.IsNodeOf premise →
          I.Holds values node.conclusion := by
        intro premise member
        exact induction premise member
          (fun node isNode => explained node (.above member isNode))
          (fun node isNode => grounds node (.above member isNode))
          (fun node isNode => resolved node (.above member isNode))
      intro node isNode
      cases isNode with
      | above member isNode => exact ofPremises _ member node isNode
      | root =>
          have premisesHold : ∀ premise ∈ proof.premises, I.Holds values premise.conclusion :=
            fun premise member => ofPremises premise member premise .root
          cases explained proof .root with
          | @rule call store issues precedes _ =>
              by_cases isResolution : proof.rule = .existentialResolution
              · exact resolved proof .root isResolution premisesHold
              · rw [issues.rule] at isResolution
                rw [issues.premises] at premisesHold
                exact Interpretation.holds_of_yields issues.yields isResolution precedes
                  (unrestricted.suits values store call) premisesHold
          | postulate isRule _ => exact grounds proof .root (by rw [isRule]; rfl)
          | membership isRule _ => exact grounds proof .root (by rw [isRule]; rfl)
          | ordering isRule _ => exact grounds proof .root (by rw [isRule]; rfl)

/-! ## Whole runs

The sample asserts that there is an `x` with `P(x)` and resolves this existence. -/

namespace Sample

def variableX : Object := ⟨1, "x", none, []⟩

def existence : Proposition :=
  .quantified .existential variableX (.atom "P" [.object variableX])

def assumed : Proof := ⟨1, existence, .postulate, []⟩

def witness : Object := variableX.renamed 1

def resolved : Proof where
  serial := 2
  conclusion := ((Proposition.atom "P" [.object variableX]).substitute variableX witness 2).1
  rule := .existentialResolution
  premises := [assumed]

def assumption : Call :=
  .assume (.existential "E" (.generic "P" [("x", .object)])) [("x", some (.object variableX))]

def resolving : Run :=
  ((start.after (.object "x")).after assumption).after (.rule (.existentialResolution assumed))

/-- Only of the value `true` it is said that `P`. -/
def onlyTrue : Interpretation Bool where
  atom _ arguments := arguments = [.value true]
  member _ _ := False
  ordered _ _ _ := False
  range _ _ := True

theorem holds_resolved : resolving.Holds (.proof resolved) :=
  .result List.mem_cons_self (List.mem_cons_of_mem _ List.mem_cons_self)

theorem reachable_resolving : resolving.Reachable := by
  have created : (start.after (.object "x")).Reachable :=
    .after .start fun _ member => nomatch member
  have asserted : ((start.after (.object "x")).after assumption).Reachable := by
    refine .after created fun item member => ?_
    rcases List.mem_cons.mp member with rfl | isValue
    · exact .quantify _ _ _ (.generic _ _)
    · rw [List.mem_singleton.mp isValue]
      exact .result List.mem_cons_self List.mem_cons_self
  refine .after asserted fun item member => ?_
  rw [List.mem_singleton.mp member]
  exact .result List.mem_cons_self List.mem_cons_self

end Sample

/-- Soundness of whole runs: if the grounds of a proof are true and do not speak
about its witnesses, these have values with which the entire tree is true. -/
theorem Reachable.exists_values_tree_holds (reachable : run.Reachable) {proof : Proof}
    (held : run.Holds (.proof proof)) (I : Interpretation D) (unrestricted : I.Unrestricted)
    (values : Assignment D)
    (groundsHold : ∀ node : Proof, node.IsNodeOf proof → node.rule.isGround = true →
      I.Holds values node.conclusion)
    (groundsFree : ∀ node : Proof, node.IsNodeOf proof → node.rule.isGround = true →
      ∀ witness, run.WitnessIn proof witness → node.conclusion.occurs witness = false) :
    ∃ values' : Assignment D,
      (∀ key, (∀ witness, run.WitnessIn proof witness → key ≠ witness.key) →
        values' key = values key) ∧
      ∀ node : Proof, node.IsNodeOf proof → I.Holds values' node.conclusion := by
  classical
  -- Resolutions outside of the tree are left out, so that only its witnesses change.
  obtain ⟨values', differs, resolved⟩ := (reachable.chronological.filter
    fun resolution => decide (resolution.2.IsNodeOf proof)).exists_values I values
  have sameElsewhere : ∀ key, (∀ witness, run.WitnessIn proof witness → key ≠ witness.key) →
      values' key = values key := by
    intro key notWitness
    refine differs key fun resolution member => ?_
    obtain ⟨isResolution, isNode⟩ := List.mem_filter.mp member
    exact notWitness resolution.1 ⟨resolution.2, of_decide_eq_true isNode, isResolution⟩
  refine ⟨values', sameElsewhere, ?_⟩
  refine holds_of_explained unrestricted (fun node isNode => reachable.explained held isNode) ?_ ?_
  · intro node isNode isGround
    refine (I.holds_congr fun x occurs => ?_).mpr (groundsHold node isNode isGround)
    refine sameElsewhere x.key fun witness isWitness same => ?_
    have free := groundsFree node isNode isGround witness isWitness
    rw [← Proposition.occurs_congr same, occurs] at free
    cases free
  · intro node isNode isResolution
    obtain ⟨⟨witness, member⟩, _⟩ := (reachable.explained held isNode).of_resolution isResolution
    exact resolved (witness, node) (List.mem_filter.mpr ⟨member, decide_eq_true isNode⟩)

theorem Reachable.exists_values_tree_holds_resolved :
    Sample.resolving.Reachable ∧ Sample.resolving.Holds (.proof Sample.resolved) ∧
      ∃ values : Assignment Bool,
        (∀ key, key ≠ Sample.witness.key → values key = false) ∧
        ∀ node : Proof, node.IsNodeOf Sample.resolved →
          Sample.onlyTrue.Holds values node.conclusion := by
  have ground : ∀ node : Proof, node.IsNodeOf Sample.resolved → node.rule.isGround = true →
      node = Sample.assumed := by
    intro node isNode isGround
    cases isNode with
    | root => cases isGround
    | above member isNode =>
        cases List.mem_singleton.mp member
        cases isNode with
        | root => rfl
        | above member _ => cases member
  have onlyWitness : ∀ witness, Sample.resolving.WitnessIn Sample.resolved witness →
      witness = Sample.witness := by
    rintro witness ⟨node, _, member⟩
    have isPair : (witness, node) = (Sample.witness, Sample.resolved) :=
      List.mem_singleton.mp member
    exact congrArg Prod.fst isPair
  refine ⟨Sample.reachable_resolving, Sample.holds_resolved, ?_⟩
  obtain ⟨values, differs, holds⟩ := Sample.reachable_resolving.exists_values_tree_holds
    Sample.holds_resolved Sample.onlyTrue (fun _ _ => True.intro) (fun _ => false)
    (fun node isNode isGround => ground node isNode isGround ▸ ⟨true, True.intro, rfl⟩)
    (fun node isNode isGround witness isWitness => by
      rw [ground node isNode isGround, onlyWitness witness isWitness]
      decide)
  exact ⟨values, fun key notWitness => differs key fun witness isWitness =>
    onlyWitness witness isWitness ▸ notWitness, holds⟩

end Run

/-! ## Consistency

A single value is enough to make everything true that is decided by a judgment,
and with a single value there is no choice for witnesses. -/

/-- The interpretation in a single value of which everything can be said. -/
def Interpretation.onePoint : Interpretation Unit where
  atom _ _ := True
  member _ _ := True
  ordered _ _ _ := True
  range _ _ := True

namespace Run.Sample

/-! The sample inserts `a` into a set, has this decided, and weakens it to `⊥ ∨ a ∈ S`. -/

def element : Object := ⟨1, "a", none, []⟩

def set : Collection := .plain 1 "S"

def decided : Proof := ⟨1, .member element set, .membership, []⟩

def weakened : Proof := ⟨2, decided.conclusion.or .falsum, .disjunction, [decided]⟩

def commuted : Proof := ⟨3, Proposition.falsum.or decided.conclusion, .commuteOr, [weakened]⟩

def inserting : Run :=
  ((start.after (.object "a")).after (.plainSet "S")).after (.insert set element)

def deciding : Run :=
  inserting.after (.proveMembership decided.conclusion)

def weakening : Run :=
  (deciding.after (.rule (.disjunction decided .falsum))).after (.rule (.commuteOr weakened))

theorem reachable_inserting : inserting.Reachable := by
  have created : (start.after (.object "a")).Reachable :=
    .after .start fun _ member => nomatch member
  have formed : ((start.after (.object "a")).after (.plainSet "S")).Reachable :=
    .after created fun _ member => nomatch member
  refine .after formed fun item member => ?_
  rcases List.mem_cons.mp member with rfl | isElement
  · exact .result List.mem_cons_self List.mem_cons_self
  · rw [List.mem_singleton.mp isElement]
    exact .result (List.mem_cons_of_mem _ List.mem_cons_self) List.mem_cons_self

theorem reachable_deciding : deciding.Reachable := by
  refine .after reachable_inserting fun item member => ?_
  rw [List.mem_singleton.mp member]
  refine .proposition (fun x isObject => ?_) fun s isSet => ?_
  · rw [List.mem_singleton.mp isObject]
    exact .result (List.mem_cons_of_mem _ (List.mem_cons_of_mem _ List.mem_cons_self))
      List.mem_cons_self
  · rw [List.mem_singleton.mp isSet]
    exact .result (List.mem_cons_of_mem _ List.mem_cons_self) List.mem_cons_self

theorem reachable_weakening : weakening.Reachable := by
  have weakenable : ∀ item ∈ (RuleCall.disjunction decided .falsum).operands,
      deciding.Holds item := by
    intro item member
    rcases List.mem_cons.mp member with rfl | isFalsum
    · exact .result List.mem_cons_self List.mem_cons_self
    · rw [List.mem_singleton.mp isFalsum]
      exact .proposition (fun _ member => nomatch member) fun _ member => nomatch member
  refine .after (.after reachable_deciding weakenable) fun item member => ?_
  rw [List.mem_singleton.mp member]
  exact .result List.mem_cons_self List.mem_cons_self

end Run.Sample

/-- Without assertions, no run proves the contradiction. -/
theorem Run.Reachable.conclusion_ne_falsum {run : Run} (reachable : run.Reachable)
    (unasserted : ∀ entry ∈ run.history, entry.asserts = false) {proof : Proof}
    (held : run.Holds (.proof proof)) : proof.conclusion ≠ .falsum := by
  intro isFalsum
  have explained : ∀ node : Proof, node.IsNodeOf proof → run.Explains node :=
    fun node isNode => reachable.explained held isNode
  have allHold : ∀ node : Proof, node.IsNodeOf proof →
      Interpretation.onePoint.Holds (fun _ => ()) node.conclusion := by
    refine holds_of_explained (fun _ _ => True.intro) explained ?_ ?_
    · intro node isNode isGround
      cases explained node isNode with
      | @rule call store issues _ _ =>
          rw [issues.rule, call.isGround_rule] at isGround
          cases isGround
      | postulate _ asserted =>
          obtain ⟨entry, member, asserts⟩ := asserted
          rw [unasserted entry member] at asserts
          cases asserts
      | membership _ isMember =>
          rw [isMember]
          exact True.intro
      | ordering _ isOrdered =>
          rw [isOrdered]
          exact True.intro
    · intro node isNode isResolution premisesHold
      obtain ⟨_, existence, store, issues, existencePrecedes⟩ :=
        (explained node isNode).of_resolution isResolution
      obtain ⟨x, body, isExistential, isConclusion⟩ := issues.yields.of_existentialResolution
      have existenceHolds := premisesHold existence (issues.premises ▸ List.mem_cons_self)
      rw [isExistential] at existenceHolds existencePrecedes
      obtain ⟨_, _, holds⟩ :=
        Interpretation.holds_of_existentialResolution existencePrecedes existenceHolds
      exact isConclusion ▸ holds
  have rootHolds := allHold proof .root
  rw [isFalsum] at rootHolds
  exact rootHolds

theorem Run.Reachable.conclusion_ne_falsum_weakened :
    (∀ entry ∈ Sample.weakening.history, entry.asserts = false) ∧
      Sample.weakening.Holds (.proof Sample.commuted) ∧ Sample.commuted.conclusion ≠ .falsum := by
  have unasserted : ∀ entry ∈ Sample.weakening.history, entry.asserts = false := by decide
  have held : Sample.weakening.Holds (.proof Sample.commuted) :=
    .result List.mem_cons_self List.mem_cons_self
  exact ⟨unasserted, held, Sample.reachable_weakening.conclusion_ne_falsum unasserted held⟩

end Deduction
