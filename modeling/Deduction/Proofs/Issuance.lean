import Deduction.Proofs.Binding
import Deduction.Proofs.Reachability

/-! # Issuance

Every node of a proof tree was issued by one call, made earlier on values that were
held then. What a call issues is told here once for all calls, so that what holds of
all nodes in all runs need only be shown of the calls that issue proofs. -/

namespace Deduction

open Session (Item)
open Kernel

/-- The node belongs to the proof that the value is or contains. -/
def Session.Item.HasNode : Item → Proof → Prop
  | .proof p, node => node.IsNodeOf p
  | .reduction (.asserted p), node => node.IsNodeOf p
  | _, _ => False

/-- The node belongs to a value that the call is made on. -/
def Call.Takes (call : Call) (node : Proof) : Prop :=
  ∃ operand ∈ call.operands, operand.HasNode node

namespace Proof

/-- The body of a universal quantification may be asserted along with it. -/
structure IsAssertion (node : Proof) : Prop where
  rule : node.rule = .postulate
  premises : node.premises = [] ∨
    ∃ x ofBody, node.premises = [ofBody] ∧
      node.conclusion = .quantified .universal x ofBody.conclusion ∧
      ofBody.rule = .postulate ∧ ofBody.premises = []

variable {node proof : Proof}

theorem eq_of_isNodeOf (noPremises : proof.premises = []) (isNode : node.IsNodeOf proof) :
    node = proof := by
  cases isNode with
  | root => rfl
  | above member _ =>
      rw [noPremises] at member
      cases member

theorem isAssertion_of_postulated {certified : Nat} {p : Proposition}
    (isNode : node.IsNodeOf (.postulated certified p)) : node.IsAssertion := by
  unfold postulated at isNode
  split at isNode
  · rename_i x body
    cases isNode with
    | root => exact ⟨rfl, .inr ⟨x, _, rfl, rfl, rfl, rfl⟩⟩
    | above member isNode =>
        cases List.mem_singleton.mp member
        rw [eq_of_isNodeOf rfl isNode]
        exact ⟨rfl, .inl rfl⟩
  · rw [eq_of_isNodeOf rfl isNode]
    exact ⟨rfl, .inl rfl⟩

end Proof

namespace Run

/-- The call, made in the run, issues the node. -/
inductive Issues (run : Run) : Call → Proof → Prop
  | rule {call : RuleCall} {node : Proof} :
      .proof node ∈ run.results (.rule call) → Issues run (.rule call) node
  | postulate {call : Call} {certified : Nat} {statement : Proposition} {node : Proof} :
      Entry.asserts ⟨call, run.results call⟩ = true →
      node.IsNodeOf (.postulated certified statement) → Issues run call node
  | membership {x : Object} {set : Collection} {node : Proof} :
      run.store.contains set x = true → node.conclusion = .member x set →
      node.rule = .membership → node.premises = [] →
      Issues run (.proveMembership (.member x set)) node
  | ordering {x y : Object} {relation : Relation} {node : Proof} :
      relation.evaluate x y = some true → node.conclusion = .ordered x relation y →
      node.rule = .ordering → node.premises = [] →
      Issues run (.proveOrdering (.ordered x relation y)) node

/-- The node was issued by a call that the run records. -/
inductive Issued (run : Run) (node : Proof) : Prop
  | intro {earlier : Run} {call : Call} :
      earlier.Reachable → (∀ item ∈ call.operands, earlier.Holds item) →
      earlier.Issues call node → ⟨call, earlier.results call⟩ ∈ run.history → Issued run node

variable {run : Run} {call : Call} {item : Item} {node : Proof}

theorem Issued.later {later : Run} (issued : run.Issued node)
    (history : ∀ entry ∈ run.history, entry ∈ later.history) : later.Issued node := by
  cases issued with
  | intro reachable held issues member =>
      exact .intro reachable held issues (history _ member)

/-- Proofs are returned by calls and cannot be put together. -/
theorem Holds.exists_result (held : run.Holds item) (hasNode : item.HasNode node) :
    ∃ entry ∈ run.history, ∃ result ∈ entry.results, result.HasNode node := by
  induction held with
  | result entryMember member => exact ⟨_, entryMember, _, member, hasNode⟩
  | premise _ member induction => exact induction (Proof.IsNodeOf.above member hasNode)
  | @boundValue schema parameter value _ _ _ => cases value <;> cases hasNode
  | _ => cases hasNode

/-! ## Results of calls -/

theorem ok_of_mem_single {α : Type} {wrap : α → Item} {action : Kernel α}
    (isSingle : call.perform = single wrap action) (member : item ∈ run.results call) :
    ∃ a, outcome action run.store = (.ok a, (run.after call).store) ∧ item = wrap a ∧
      run.results call = [wrap a] := by
  obtain ⟨items, performed, areResults⟩ := ok_of_mem_results member
  rw [isSingle] at performed
  obtain ⟨a, isOk, rfl⟩ := ok_of_single performed
  rw [areResults] at member
  exact ⟨a, isOk, List.mem_singleton.mp member, areResults⟩

theorem ok_of_mem_resolution {existence : Proof}
    (member : item ∈ run.results (.rule (.existentialResolution existence))) :
    ∃ witness proof,
      outcome (existentialResolution existence) run.store =
        (.ok (witness, proof), (run.after (.rule (.existentialResolution existence))).store) ∧
      run.results (.rule (.existentialResolution existence)) = [.object witness, .proof proof] := by
  obtain ⟨items, performed, areResults⟩ := ok_of_mem_results member
  obtain ⟨⟨witness, proof⟩, middle, resolved, returned⟩ := ok_of_bind performed
  cases returned
  exact ⟨witness, proof, resolved, areResults⟩

theorem item_of_rule {call : RuleCall} (member : item ∈ run.results (.rule call)) :
    (∃ x, item = .object x) ∨ ∃ proof, item = .proof proof := by
  cases call with
  | equivalenceElimination equivalence =>
      obtain ⟨items, performed, areResults⟩ := ok_of_mem_results member
      obtain ⟨⟨forward, backward⟩, _, _, returned⟩ := ok_of_bind performed
      cases returned
      rw [areResults] at member
      rcases List.mem_cons.mp member with rfl | isSecond
      · exact .inr ⟨forward, rfl⟩
      · exact .inr ⟨backward, List.mem_singleton.mp isSecond⟩
  | existentialResolution existence =>
      obtain ⟨witness, proof, _, arePair⟩ := ok_of_mem_resolution member
      rw [arePair] at member
      rcases List.mem_cons.mp member with rfl | isSecond
      · exact .inl ⟨witness, rfl⟩
      · exact .inr ⟨proof, List.mem_singleton.mp isSecond⟩
  | _ =>
      obtain ⟨proof, _, rfl, _⟩ := ok_of_mem_single rfl member
      exact .inr ⟨proof, rfl⟩

/-- Only an application that asserts its proposition returns a proof. -/
theorem eq_postulated_of_applySchema {schema : Schema} {bindings : Bindings} {assert : Bool}
    {store after : Store} {proof : Proof}
    (ok : outcome (applySchema schema bindings assert) store = (.ok (.asserted proof), after)) :
    assert = true ∧ ∃ p, proof = .postulated store.certified p := by
  have isReduced := outcome_applySchema schema bindings assert store
  rw [ok] at isReduced
  obtain ⟨bound, _, reduced⟩ := Inference.ok_of_bind isReduced.symm
  rcases Schema.reduced_cases reduced with ⟨_, isUnfinished⟩ | ⟨p, _, _, isConcluded⟩
  · cases isUnfinished
  · cases assert with
    | false => cases isConcluded
    | true => exact ⟨rfl, p, Reduction.asserted.inj isConcluded⟩

/-! ## What calls issue

The nodes of what a call returns are issued by it, or they belong to a value that the
call is made on. -/

theorem issues_rule {call : RuleCall} {proof : Proof}
    (member : .proof proof ∈ run.results (.rule call)) (isNode : node.IsNodeOf proof) :
    run.Issues (.rule call) node ∨ (Call.rule call).Takes node := by
  cases isNode with
  | root => exact .inl (.rule member)
  | above premiseMember isNode =>
      obtain ⟨items, performed, areResults⟩ := ok_of_mem_results member
      rw [(RuleCall.issues_of_perform performed (areResults ▸ member)).premises] at premiseMember
      exact .inr ⟨.proof _, List.mem_append_left _ (List.mem_append_left _
        (List.mem_map_of_mem premiseMember)), isNode⟩

theorem issues_applySchema {schema : Schema} {bindings : Bindings} {assert : Bool}
    (member : item ∈ run.results (.applySchema schema bindings assert))
    (hasNode : item.HasNode node) :
    run.Issues (.applySchema schema bindings assert) node := by
  obtain ⟨reduction, applied, rfl, areResults⟩ := ok_of_mem_single rfl member
  cases reduction with
  | unfinished schema => cases hasNode
  | complete statement => cases hasNode
  | asserted proof =>
      obtain ⟨rfl, p, rfl⟩ := eq_postulated_of_applySchema applied
      exact .postulate (by rw [areResults]; rfl) hasNode

theorem issues_applyReduction {reduction : Reduction} {bindings : Bindings} {assert : Bool}
    (member : item ∈ run.results (.applyReduction reduction bindings assert))
    (hasNode : item.HasNode node) :
    run.Issues (.applyReduction reduction bindings assert) node ∨
      (Call.applyReduction reduction bindings assert).Takes node := by
  obtain ⟨result, applied, rfl, areResults⟩ := ok_of_mem_single rfl member
  cases result with
  | unfinished schema => cases hasNode
  | complete statement => cases hasNode
  | asserted proof =>
      cases reduction with
      | unfinished schema =>
          obtain ⟨rfl, p, rfl⟩ := eq_postulated_of_applySchema applied
          exact .inl (.postulate (by rw [areResults]; rfl) hasNode)
      | complete statement =>
          cases (Reduction.present_of_applyReduction rfl (congrArg Prod.fst applied)).2
      | asserted proof' =>
          cases (Reduction.present_of_applyReduction rfl (congrArg Prod.fst applied)).2
          exact .inr ⟨_, List.mem_cons_self, hasNode⟩

theorem issues_assume {schema : Schema} {bindings : Bindings}
    (member : item ∈ run.results (.assume schema bindings)) (hasNode : item.HasNode node) :
    run.Issues (.assume schema bindings) node := by
  obtain ⟨proof, assumed, rfl, areResults⟩ := ok_of_mem_single rfl member
  obtain ⟨reduction, middle, applied, asserted⟩ := ok_of_bind assumed
  cases reduction with
  | unfinished schema => cases asserted
  | complete statement => cases asserted
  | asserted proof' =>
      cases asserted
      obtain ⟨_, p, rfl⟩ := eq_postulated_of_applySchema applied
      exact .postulate (by rw [areResults]; rfl) hasNode

theorem issues_assertedProof {reduction : Reduction}
    (member : item ∈ run.results (.assertedProof reduction)) (hasNode : item.HasNode node) :
    (Call.assertedProof reduction).Takes node := by
  obtain ⟨proof, returned, rfl, _⟩ := ok_of_mem_single rfl member
  cases reduction with
  | unfinished schema => cases returned
  | complete statement => cases returned
  | asserted proof' =>
      cases returned
      exact ⟨_, List.mem_cons_self, hasNode⟩

theorem issues_proveMembership {statement : Proposition}
    (member : item ∈ run.results (.proveMembership statement)) (hasNode : item.HasNode node) :
    run.Issues (.proveMembership statement) node := by
  obtain ⟨proof, proved, rfl, _⟩ := ok_of_mem_single rfl member
  obtain ⟨store, _, isRead, proved⟩ := ok_of_bind proved
  obtain ⟨rfl, rfl⟩ := ok_of_get isRead
  obtain ⟨_, _, judged, issued⟩ := ok_of_bind proved
  obtain ⟨isConclusion, isRule, arePremises⟩ := ok_of_certify issued
  have judgment := (ok_of_liftExcept judged).1
  unfold Inference.judgeMembership at judgment
  split at judgment
  · split at judgment
    · rename_i contains
      rw [Proof.eq_of_isNodeOf arePremises hasNode]
      exact .membership contains isConclusion isRule arePremises
    · cases judgment
  · cases judgment

theorem issues_proveOrdering {statement : Proposition}
    (member : item ∈ run.results (.proveOrdering statement)) (hasNode : item.HasNode node) :
    run.Issues (.proveOrdering statement) node := by
  obtain ⟨proof, proved, rfl, _⟩ := ok_of_mem_single rfl member
  obtain ⟨_, _, judged, issued⟩ := ok_of_bind proved
  obtain ⟨isConclusion, isRule, arePremises⟩ := ok_of_certify issued
  have judgment := (ok_of_liftExcept judged).1
  unfold Inference.judgeOrdering at judgment
  split at judgment
  · split at judgment
    · rename_i holds
      rw [Proof.eq_of_isNodeOf arePremises hasNode]
      exact .ordering holds isConclusion isRule arePremises
    · cases judgment
    · cases judgment
  · cases judgment

theorem issues_or_takes (member : item ∈ run.results call) (hasNode : item.HasNode node) :
    run.Issues call node ∨ call.Takes node := by
  cases call with
  | applySchema schema bindings assert => exact .inl (issues_applySchema member hasNode)
  | applyReduction reduction bindings assert => exact issues_applyReduction member hasNode
  | assume schema bindings => exact .inl (issues_assume member hasNode)
  | assertedProof reduction => exact .inr (issues_assertedProof member hasNode)
  | proveMembership statement => exact .inl (issues_proveMembership member hasNode)
  | proveOrdering statement => exact .inl (issues_proveOrdering member hasNode)
  | rule call =>
      rcases item_of_rule member with ⟨x, rfl⟩ | ⟨proof, rfl⟩
      · cases hasNode
      · exact issues_rule member hasNode
  | numberSets =>
      obtain ⟨items, performed, areResults⟩ := ok_of_mem_results member
      obtain ⟨numbers, _, _, returned⟩ := ok_of_bind performed
      cases returned
      simp only [areResults, List.mem_cons, List.not_mem_nil, or_false] at member
      rcases member with rfl | rfl | rfl <;> cases hasNode
  | literal numbers name =>
      obtain ⟨items, performed, areResults⟩ := ok_of_mem_results member
      obtain ⟨found, _, _, returned⟩ := ok_of_bind performed
      cases returned
      rw [areResults, Option.mem_toList] at member
      obtain ⟨x, _, rfl⟩ := Option.map_eq_some_iff.mp member
      cases hasNode
  | insert set x =>
      obtain ⟨items, performed, areResults⟩ := ok_of_mem_results member
      obtain ⟨_, _, _, returned⟩ := ok_of_bind performed
      cases returned
      rw [areResults] at member
      cases member
  | take number cursor =>
      obtain ⟨items, performed, areResults⟩ := ok_of_mem_results member
      obtain ⟨⟨objects, rest⟩, _, _, returned⟩ := ok_of_bind performed
      cases returned
      rw [areResults] at member
      rcases List.mem_cons.mp member with rfl | inObjects
      · cases hasNode
      · obtain ⟨x, _, rfl⟩ := List.mem_map.mp inObjects
        cases hasNode
  | _ =>
      obtain ⟨_, _, rfl, _⟩ := ok_of_mem_single rfl member
      cases hasNode

/-! ## Runs -/

theorem Reachable.issued_of_result (reachable : run.Reachable) {entry : Entry}
    (entryMember : entry ∈ run.history) (member : item ∈ entry.results)
    (hasNode : item.HasNode node) : run.Issued node := by
  induction reachable generalizing entry item with
  | start => cases entryMember
  | @after run call reachable held induction =>
      have older : ∀ entry ∈ run.history, entry ∈ (run.after call).history :=
        fun _ member => List.mem_cons_of_mem _ member
      rcases List.mem_cons.mp entryMember with rfl | isOld
      · rcases issues_or_takes member hasNode with issues | ⟨operand, operandMember, hasNode⟩
        · exact .intro reachable held issues List.mem_cons_self
        · obtain ⟨entry, entryMember, result, member, hasNode⟩ :=
            (held operand operandMember).exists_result hasNode
          exact (induction entryMember member hasNode).later older
      · exact (induction isOld member hasNode).later older
  | release isKept _ induction =>
      exact (induction entryMember member hasNode).later fun _ member => member

/-- Every node of a held proof was issued by some call of the run. -/
theorem Reachable.issued (reachable : run.Reachable) (held : run.Holds item)
    (hasNode : item.HasNode node) : run.Issued node := by
  obtain ⟨entry, entryMember, result, member, hasNode⟩ := held.exists_result hasNode
  exact reachable.issued_of_result entryMember member hasNode

end Run

end Deduction
