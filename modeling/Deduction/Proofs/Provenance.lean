import Deduction.Proofs.Issuance

/-! # Provenance

Where the nodes of a proof tree come from: each one was issued by a rule on the
premises it records, or it is a ground of the proof, which was asserted or decided
by a judgment. The witnesses of resolved existences are in order of creation. -/

namespace Deduction

open Kernel

/-- The rules by which propositions are asserted or decided, not derived. -/
def Rule.isGround : Rule → Bool
  | postulate => true
  | membership => true
  | ordering => true
  | _ => false

theorem RuleCall.isGround_rule (call : RuleCall) : call.rule.isGround = false := by
  cases call <;> rfl

namespace Run

/-- How a proof came about in the course of a run. -/
inductive Explains (run : Run) (node : Proof) : Prop
  | rule {call : RuleCall} {store : Store} :
      call.Issues store node → call.Precedes store.created →
      (node.rule = .existentialResolution → ∃ witness, (witness, node) ∈ run.resolutions) →
      Explains run node
  | postulate :
      node.rule = .postulate → (∃ entry ∈ run.history, entry.asserts = true) → Explains run node
  | membership {x : Object} {set : Collection} :
      node.rule = .membership → node.conclusion = .member x set → Explains run node
  | ordering {x y : Object} {relation : Relation} :
      node.rule = .ordering → node.conclusion = .ordered x relation y → Explains run node

variable {run : Run}

/-- An existence is resolved by the rule for it and by nothing else. -/
theorem Explains.of_resolution {node : Proof} (explained : run.Explains node)
    (isResolution : node.rule = .existentialResolution) :
    (∃ witness, (witness, node) ∈ run.resolutions) ∧
      ∃ existence store, (RuleCall.existentialResolution existence).Issues store node ∧
        existence.conclusion.Precedes store.created := by
  cases explained with
  | @rule call store issues precedes resolved =>
      refine ⟨resolved isResolution, ?_⟩
      rw [issues.rule] at isResolution
      cases call with
      | existentialResolution existence =>
          exact ⟨existence, store, issues, precedes.1 existence List.mem_cons_self⟩
      | _ => cases isResolution
  | postulate isRule _ => cases isRule.symm.trans isResolution
  | membership isRule _ => cases isRule.symm.trans isResolution
  | ordering isRule _ => cases isRule.symm.trans isResolution

/-! ## Issued nodes -/

/-- A resolution that the rule for it issues is recorded with its witness. -/
theorem exists_resolution {earlier : Run} {existence node : Proof}
    (member : .proof node ∈ earlier.results (.rule (.existentialResolution existence)))
    (recorded : ⟨.rule (.existentialResolution existence),
      earlier.results (.rule (.existentialResolution existence))⟩ ∈ run.history) :
    ∃ witness, (witness, node) ∈ run.resolutions := by
  obtain ⟨witness, proof, _, arePair⟩ := ok_of_mem_resolution member
  have isProof : node = proof := by
    rw [arePair] at member
    simpa using member
  refine ⟨witness, List.mem_filterMap.mpr ⟨_, recorded, ?_⟩⟩
  rw [arePair, isProof]
  rfl

theorem Issued.explains {node : Proof} (issued : run.Issued node) : run.Explains node := by
  cases issued with
  | @intro earlier call reachable held issues recorded =>
      cases issues with
      | @rule call _ member =>
          obtain ⟨items, performed, areResults⟩ := ok_of_mem_results member
          have issues := RuleCall.issues_of_perform performed (areResults ▸ member)
          refine .rule issues (reachable.precedes_of_held held) fun isResolution => ?_
          rw [issues.rule] at isResolution
          cases call with
          | existentialResolution existence => exact exists_resolution member recorded
          | _ => cases isResolution
      | postulate asserts isNode =>
          exact .postulate (Proof.isAssertion_of_postulated isNode).rule ⟨_, recorded, asserts⟩
      | membership _ isMember isRule _ => exact .membership isRule isMember
      | ordering _ isOrdered isRule _ => exact .ordering isRule isOrdered

/-- Every node of the tree of a held proof can be explained. -/
theorem Reachable.explained (reachable : run.Reachable) {proof node : Proof}
    (held : run.Holds (.proof proof)) (isNode : node.IsNodeOf proof) : run.Explains node :=
  (reachable.issued held isNode).explains

/-! ## Witnesses in order of creation -/

/-- The proof was concluded from an existence, its witness being the next object
after the first `created` ones. -/
inductive Resolves (created : Nat) : Object → Proof → Prop
  | intro {proof existence : Proof} {x : Object} {body : Proposition} :
      proof.premises = [existence] → existence.conclusion = .quantified .existential x body →
      existence.conclusion.Precedes created →
      proof.conclusion = (body.substitute x (x.renamed created) (created + 1)).1 →
      Resolves created (x.renamed created) proof

/-- The resolutions, the latest first, speak about the first `limit` objects, and
each one about fewer than there were at the next. -/
inductive Chronological : Nat → List (Object × Proof) → Prop
  | nil (limit : Nat) : Chronological limit []
  | cons {limit created : Nat} {witness : Object} {proof : Proof}
      {earlier : List (Object × Proof)} :
      Resolves created witness proof → created ≤ limit → proof.conclusion.Precedes limit →
      Chronological created earlier → Chronological limit ((witness, proof) :: earlier)

theorem Chronological.mono {limit later : Nat} {resolutions : List (Object × Proof)}
    (chronological : Chronological limit resolutions) (le : limit ≤ later) :
    Chronological later resolutions := by
  cases chronological with
  | nil => exact .nil later
  | cons resolves createdLe precedes earlier =>
      exact .cons resolves (Nat.le_trans createdLe le) (precedes.mono le) earlier

theorem Chronological.filter {limit : Nat} {resolutions : List (Object × Proof)}
    (chronological : Chronological limit resolutions) (keep : Object × Proof → Bool) :
    Chronological limit (resolutions.filter keep) := by
  induction chronological with
  | nil limit => exact .nil limit
  | cons resolves createdLe precedes _ induction =>
      rw [List.filter_cons]
      split
      · exact .cons resolves createdLe precedes induction
      · exact induction.mono createdLe

/-- The propositions of a resolution speak about the objects up to the limit. -/
theorem Chronological.precedes {limit : Nat} {resolutions : List (Object × Proof)}
    (chronological : Chronological limit resolutions) {witness : Object} {proof : Proof}
    (member : (witness, proof) ∈ resolutions) :
    (∀ premise ∈ proof.premises, premise.conclusion.Precedes limit) ∧
      proof.conclusion.Precedes limit := by
  induction chronological with
  | nil limit => cases member
  | cons resolves createdLe precedes _ induction =>
      rcases List.mem_cons.mp member with isHead | isEarlier
      · cases isHead
        refine ⟨?_, precedes⟩
        cases resolves with
        | intro arePremises _ existencePrecedes _ =>
            intro premise premiseMember
            rw [arePremises] at premiseMember
            rw [List.mem_singleton.mp premiseMember]
            exact existencePrecedes.mono createdLe
      · have ofEarlier := induction isEarlier
        exact ⟨fun premise premiseMember => (ofEarlier.1 premise premiseMember).mono createdLe,
          ofEarlier.2.mono createdLe⟩

/-- A witness that a call introduces is the next object. -/
theorem Reachable.resolves_of_resolution (reachable : run.Reachable)
    (held : ∀ item ∈ call.operands, run.Holds item) {witness : Object} {proof : Proof}
    (resolved : Entry.resolution ⟨call, run.results call⟩ = some (witness, proof)) :
    Resolves run.store.created witness proof ∧ .proof proof ∈ run.results call := by
  unfold Entry.resolution at resolved
  split at resolved
  · rename_i existence _ _ isEntry
    cases resolved
    obtain ⟨rfl, areResults⟩ := Entry.mk.inj isEntry
    have proofMember :
        .proof proof ∈ run.results (.rule (.existentialResolution existence)) := by
      rw [areResults]
      exact List.mem_cons_of_mem _ List.mem_cons_self
    obtain ⟨witness', proof', ok, areResults'⟩ := ok_of_mem_resolution proofMember
    rw [areResults] at areResults'
    cases areResults'
    obtain ⟨x, body, isExistential, rfl, isConclusion, _, arePremises⟩ :=
      ok_of_existentialResolution ok
    have existencePrecedes :=
      (reachable.precedes_of_held held).1 existence List.mem_cons_self
    exact ⟨.intro arePremises isExistential existencePrecedes isConclusion, proofMember⟩
  · cases resolved

theorem Reachable.chronological (reachable : run.Reachable) :
    Chronological run.store.created run.resolutions := by
  induction reachable with
  | start => exact .nil _
  | @after run call reachable held induction =>
      have within := (Reachable.after reachable held).created_all
      have advances := reachable.created_le_after held
      cases resolved : Entry.resolution ⟨call, run.results call⟩ with
      | none =>
          have same : (run.after call).resolutions = run.resolutions :=
            List.filterMap_cons_none resolved
          rw [same]
          exact induction.mono advances
      | some resolution =>
          have added : (run.after call).resolutions = resolution :: run.resolutions :=
            List.filterMap_cons_some resolved
          obtain ⟨resolves, proofMember⟩ := reachable.resolves_of_resolution held resolved
          have proofWithin := within.2 _ List.mem_cons_self _ proofMember
          rw [added]
          exact .cons resolves advances (Proof.Within.conclusion proofWithin).precedes
            induction
  | release isKept _ induction => exact induction

end Run

end Deduction
