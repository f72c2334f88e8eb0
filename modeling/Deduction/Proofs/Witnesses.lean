import Deduction.Proofs.Growth
import Deduction.Proofs.Replacement

/-! # Witnesses

An existence is used by way of a witness, which is an object that nothing has mentioned
before. So what was concluded about the witness can be turned back into an existence, and
the detour over a witness concludes what modus ponens under the quantifier does. -/

namespace Deduction

namespace Kernel

variable {store : Store}

/-! ## Resolution and introduction -/

theorem exists_resolution_by_replace {existence : Proof} {x : Object} {body : Proposition}
    {found : Option Collection}
    (isExistential : existence.conclusion = .quantified .existential x body)
    (isDomain : store.domain x = .ok found) (precedes : body.Precedes store.created) :
    ∃ proof after,
      outcome (existentialResolution existence) store =
        (.ok (x.renamed store.created, proof), after) ∧
      proof.conclusion = body.replace x (x.renamed store.created) ∧
      after.created = store.created + 1 ∧
      after.living = store.living ∧ after.members = store.members := by
  have resolves := exists_existentialResolution isExistential isDomain
  rwa [(precedes.avoids x).substitute x (store.created + 1)] at resolves

/-- If a proof speaks about an object just where another one stood, the existence speaks
about its variable there. -/
theorem proves_introduction_of_replace {instanceProof : Proof} {body : Proposition}
    {old witness x : Object} (isInstance : instanceProof.conclusion = body.replace old witness)
    (different : x.key ≠ witness.key) (gone : x.key = old.key ∨ body.occurs x = false)
    (store : Store) :
    Proves (existentialIntroduction instanceProof witness x) store
      (.quantified .existential x ((body.replace old witness).substitute witness x store.created).1)
      ((body.replace old witness).substitute witness x store.created).2 := by
  have notFree := Proposition.not_occurs_replace different gone
  rw [← isInstance] at notFree ⊢
  exact proves_existentialIntroduction (.inr notFree) store

end Kernel

/-! ## Sample

There are variables `x` and `y` in no set, `s` in a plain set `S` and `n` in the naturals.
The assertions are `∃x, P(x) ∧ ∀x, Q(x)`, which binds its variable twice, then `∃y, P(y)` and
`∀x, P(x) ⇒ ∃y, R(x, y)`, where `y` is captured, and `∃s, P(s)`, `∀s, Q(s)`, `∃n, P(n)` and
`∀n, Q(n)`. -/

namespace Run.Sample

def persons : Collection := .plain 1 "S"

def counting : Collection := .number (.naturals 2)

def freeX : Object := ⟨1, "x", none, []⟩

def freeY : Object := ⟨2, "y", none, []⟩

def person : Object := ⟨3, "s", some 1, []⟩

def count : Object := ⟨4, "n", some 2, []⟩

def declared : Run :=
  (((((start.after (.plainSet "S")).after .numberSets).after (.object "x")).after
    (.object "y")).after (.objectIn "s" persons)).after (.objectIn "n" counting)

def said (name : String) (x : Object) : Proposition :=
  .atom name [.object x]

def assertion (quantifier : Quantifier) (x : Object) (body : Proposition) : Call :=
  .assume (.quantify "A" quantifier "x" (.settled body)) [("x", some (.object x))]

def shadowed : Proposition :=
  (said "P" freeX).and (.quantified .universal freeX (said "Q" freeX))

def shadowing : Run :=
  declared.after (assertion .existential freeX shadowed)

def ofShadowed : Proof := ⟨1, .quantified .existential freeX shadowed, .postulate, []⟩

def related : Proposition :=
  .quantified .existential freeY (.atom "R" [.object freeX, .object freeY])

def relating : Run :=
  (declared.after (assertion .existential freeY (said "P" freeY))).after
    (assertion .universal freeX ((said "P" freeX).implies related))

def ofSome : Proof := ⟨1, .quantified .existential freeY (said "P" freeY), .postulate, []⟩

def ofRelated : Proof where
  serial := 3
  conclusion := .quantified .universal freeX ((said "P" freeX).implies related)
  rule := .postulate
  premises := [⟨2, (said "P" freeX).implies related, .postulate, []⟩]

def ranging : Run :=
  (((declared.after (assertion .existential person (said "P" person))).after
    (assertion .universal person (said "Q" person))).after
    (assertion .existential count (said "P" count))).after
    (assertion .universal count (said "Q" count))

def ofSomePerson : Proof :=
  ⟨1, .quantified .existential person (said "P" person), .postulate, []⟩

def ofAllPersons : Proof where
  serial := 3
  conclusion := .quantified .universal person (said "Q" person)
  rule := .postulate
  premises := [⟨2, said "Q" person, .postulate, []⟩]

def ofSomeCount : Proof := ⟨4, .quantified .existential count (said "P" count), .postulate, []⟩

def ofAllCounts : Proof where
  serial := 6
  conclusion := .quantified .universal count (said "Q" count)
  rule := .postulate
  premises := [⟨5, said "Q" count, .postulate, []⟩]

theorem reachable_declared : declared.Reachable := by
  have unowned : ((((start.after (.plainSet "S")).after .numberSets).after (.object "x")).after
      (.object "y")).Reachable := by
    refine .after (.after (.after (.after .start ?_) ?_) ?_) ?_ <;>
      exact fun _ member => nomatch member
  refine .after (.after unowned (List.forall_mem_singleton.mpr ?_))
    (List.forall_mem_singleton.mpr ?_)
  · exact .result (List.mem_of_getElem? (i := 3) rfl) List.mem_cons_self
  · exact .result (List.mem_of_getElem? (i := 3) rfl) List.mem_cons_self

theorem reachable_assertion {run : Run} (reachable : run.Reachable) (quantifier : Quantifier)
    {x : Object} {body : Proposition} (held : run.Holds (.object x))
    (bodyHeld : run.Holds (.proposition body)) :
    (run.after (assertion quantifier x body)).Reachable :=
  .after reachable
    (List.forall_mem_cons.mpr ⟨.quantify _ _ _ bodyHeld, List.forall_mem_singleton.mpr held⟩)

theorem reachable_said {run : Run} (reachable : run.Reachable) (quantifier : Quantifier)
    {name : String} {x : Object} (held : run.Holds (.object x)) :
    (run.after (assertion quantifier x (said name x))).Reachable :=
  reachable_assertion reachable quantifier held
    (.proposition (List.forall_mem_singleton.mpr held) fun _ member => nomatch member)

theorem reachable_shadowing : shadowing.Reachable := by
  have held : declared.Holds (.object freeX) :=
    .result (List.mem_of_getElem? (i := 3) rfl) List.mem_cons_self
  refine reachable_assertion reachable_declared _ held
    (.proposition (fun x isObject => ?_) fun _ member => nomatch member)
  have isX : x = freeX := by
    simpa [shadowed, said, Proposition.and, Proposition.objects, Argument.objects] using isObject
  rwa [isX]

theorem reachable_relating : relating.Reachable := by
  have yHeld : declared.Holds (.object freeY) :=
    .result (List.mem_of_getElem? (i := 2) rfl) List.mem_cons_self
  have xHeld : (declared.after (assertion .existential freeY (said "P" freeY))).Holds
      (.object freeX) := .result (List.mem_of_getElem? (i := 4) rfl) List.mem_cons_self
  refine reachable_assertion (reachable_said reachable_declared _ yHeld) _ xHeld
    (.proposition (fun x isObject => ?_) fun _ member => nomatch member)
  have isEither : x = freeX ∨ x = freeY ∨ x = freeX ∨ x = freeY := by
    simpa [related, said, Proposition.implies, Proposition.objects, Argument.objects]
      using isObject
  rcases isEither with rfl | rfl | rfl | rfl
  · exact xHeld
  · exact .result (List.mem_of_getElem? (i := 3) rfl) List.mem_cons_self
  · exact xHeld
  · exact .result (List.mem_of_getElem? (i := 3) rfl) List.mem_cons_self

theorem reachable_ranging : ranging.Reachable := by
  refine reachable_said (reachable_said (reachable_said (reachable_said reachable_declared _ ?_)
    _ ?_) _ ?_) _ ?_
  · exact .result (List.mem_of_getElem? (i := 1) rfl) List.mem_cons_self
  · exact .result (List.mem_of_getElem? (i := 2) rfl) List.mem_cons_self
  · exact .result (List.mem_of_getElem? (i := 2) rfl) List.mem_cons_self
  · exact .result (List.mem_of_getElem? (i := 3) rfl) List.mem_cons_self

end Run.Sample

open Kernel (outcome Proves)

namespace Run

variable {run : Run}

/-- A witness is new, and the existence that it was taken from can be introduced again
without creating anything. -/
theorem Reachable.introduction_undoes_resolution (reachable : run.Reachable) {existence : Proof}
    (held : run.Holds (.proof existence)) {x : Object} {body : Proposition}
    {found : Option Collection}
    (isExistential : existence.conclusion = .quantified .existential x body)
    (isDomain : run.store.domain x = .ok found) :
    ∃ witness proof after,
      outcome (Kernel.existentialResolution existence) run.store = (.ok (witness, proof), after) ∧
      (∀ p, run.Holds (.proposition p) → p.Avoids witness) ∧
      after.created = run.store.created + 1 ∧
      ∀ later : Store, ∃ conclusion,
        Proves (Kernel.existentialIntroduction proof witness x) later conclusion later.created ∧
        (conclusion == existence.conclusion) = true := by
  have precedes := (reachable.within held).conclusion.precedes
  rw [isExistential] at precedes
  obtain ⟨xPrecedes, bodyPrecedes⟩ := List.forall_mem_cons.mp precedes
  obtain ⟨proof, after, ok, isInstance, created, _, _⟩ :=
    Kernel.exists_resolution_by_replace isExistential isDomain bodyPrecedes
  refine ⟨_, proof, after, ok, ?_, created, fun later => ?_⟩
  · intro p isHeld
    have within := reachable.within isHeld
    exact Proposition.Precedes.avoids within.precedes x
  · have avoids : body.Avoids (x.renamed run.store.created) :=
      Proposition.Precedes.avoids bodyPrecedes x
    have proves := Kernel.proves_introduction_of_replace isInstance
      (xPrecedes.ne_renamed x) (.inl rfl) later
    rw [avoids.substitute_replace (Proposition.not_captures_self x body)] at proves
    refine ⟨_, proves, ?_⟩
    rw [isExistential]
    exact Proposition.beq_quantified rfl (Proposition.replace_beq_self rfl body)

theorem Reachable.introduction_undoes_resolution_shadowing :
    ∃ witness proof after,
      outcome (Kernel.existentialResolution Sample.ofShadowed) Sample.shadowing.store =
        (.ok (witness, proof), after) ∧
      Sample.ofShadowed.conclusion.Avoids witness ∧ after.created = 5 ∧
      ∃ conclusion,
        Proves (Kernel.existentialIntroduction proof witness Sample.freeX) after conclusion 5 ∧
        (conclusion == Sample.ofShadowed.conclusion) = true := by
  have held : Sample.shadowing.Holds (.proof Sample.ofShadowed) :=
    .result List.mem_cons_self List.mem_cons_self
  have isDomain : Sample.shadowing.store.domain Sample.freeX = .ok none := rfl
  obtain ⟨witness, proof, after, ok, avoids, created, introduces⟩ :=
    Sample.reachable_shadowing.introduction_undoes_resolution held rfl isDomain
  have isFive : after.created = 5 := created
  obtain ⟨conclusion, proves, equal⟩ := introduces after
  rw [isFive] at proves
  exact ⟨witness, proof, after, ok, avoids _ (.conclusion held), isFive, conclusion, proves, equal⟩

end Run

/-! ## The detour over a witness -/

namespace Kernel

variable {store : Store}

/-- From `∀x, A(x) ⇒ B(x)` and `∃y, A(y)`, conclude `∃y, B(y)` by way of a witness. -/
def detour (all existence : Proof) (y : Object) : Kernel Proof := do
  let (witness, ofWitness) ← existentialResolution existence
  let implication ← universalResolution all witness
  let consequence ← modusPonens implication ofWitness
  existentialIntroduction consequence witness y

variable {all existence : Proof} {x y : Object} {a b a' : Proposition}

/-- The antecedents are compared as they are, so that replacing the variable captured
nothing in the antecedent if they agree. -/
theorem conditions_of_quantifiedModusPonens {direct : Proof} {after : Store}
    (isUniversal : all.conclusion = .quantified .universal x (a.implies b))
    (isExistential : existence.conclusion = .quantified .existential y a')
    (precedes : a'.Precedes store.created)
    (ok : outcome (quantifiedModusPonens all existence) store = (.ok direct, after)) :
    (y.key = x.key ∨ (a.implies b).occurs y = false) ∧ a.captures x y = false ∧
      (a.replace x y == a') = true ∧
      direct.conclusion = .quantified .existential y (b.substitute x y store.created).1 ∧
      after.created = (b.substitute x y store.created).2 := by
  obtain ⟨antecedent, consequent, notFree, narrows, isImplication, agrees⟩ :
      ∃ antecedent consequent : Proposition,
        (y.key = x.key ∨ all.conclusion.occurs y = false) ∧ store.Narrows x y ∧
        ((a.implies b).substitute x y store.created).1 = antecedent.implies consequent ∧
        (antecedent == a') = true := by
    have yields := (ok_of_quantifiedModusPonens ok).yields
    generalize direct.conclusion = conclusion at yields
    cases yields with
    | quantifiedModusPonens isUniversal' isQuantified notFree narrows isImplication agrees =>
        cases isUniversal.symm.trans isUniversal'
        cases isExistential.symm.trans isQuantified
        exact ⟨_, _, notFree, narrows, isImplication, agrees⟩
  have proves := proves_quantifiedModusPonens isUniversal isExistential notFree narrows
    isImplication agrees
  obtain ⟨isConclusion, created⟩ := proves.of_ok ok
  rw [Proposition.implies, Proposition.substitute_binary] at isImplication created
  cases isImplication
  have notCaptured := Proposition.not_captures_of_beq precedes agrees
  rw [Proposition.substitute_of_not_captures notCaptured] at agrees isConclusion created
  refine ⟨?_, notCaptured, agrees, isConclusion, created⟩
  rw [isUniversal] at notFree
  by_cases same : y.key = x.key
  · exact .inl same
  · rwa [Proposition.occurs_inside (Ne.symm same)] at notFree

theorem proves_detour (isUniversal : all.conclusion = .quantified .universal x (a.implies b))
    (isExistential : existence.conclusion = .quantified .existential y a')
    (xAnywhere : x.owner = none) (yAnywhere : y.owner = none)
    (allPrecedes : (a.implies b).Precedes store.created)
    (existencePrecedes : existence.conclusion.Precedes store.created)
    (notFree : y.key = x.key ∨ (a.implies b).occurs y = false)
    (notCaptured : a.captures x y = false) (agrees : (a.replace x y == a') = true) :
    Proves (detour all existence y) store
      (.quantified .existential y
        ((b.replace x (y.renamed store.created)).substitute (y.renamed store.created) y
          (store.created + 1)).1)
      ((b.replace x (y.renamed store.created)).substitute (y.renamed store.created) y
        (store.created + 1)).2 := by
  rw [isExistential] at existencePrecedes
  obtain ⟨yPrecedes, bodyPrecedes⟩ := List.forall_mem_cons.mp existencePrecedes
  have apart := notFree.imp_right Bool.or_eq_false_iff.mp
  obtain ⟨ofWitness, resolved, ok, isWitnessed, created, _, _⟩ :=
    exists_resolution_by_replace isExistential (store.domain_of_unowned yAnywhere) bodyPrecedes
  have admits : resolved.Admits x (y.renamed store.created) := .inl xAnywhere
  obtain ⟨implication, specialized, ok', isImplication, created'⟩ :=
    proves_universalResolution isUniversal admits
  rw [(allPrecedes.avoids y).substitute] at isImplication created'
  -- The antecedents agree with `y` in the place of `x`, hence also with the witness there.
  have agrees' : (a.replace x (y.renamed store.created) == ofWitness.conclusion) = true := by
    have congruent := Proposition.replace_congr y (y.renamed store.created) agrees
    rwa [Proposition.replace_replace (apart.imp_right And.left) notCaptured, ← isWitnessed]
      at congruent
  obtain ⟨consequence, concluded, ok'', isConsequence, created''⟩ :=
    proves_modusPonens isImplication agrees' specialized
  have introduced := proves_introduction_of_replace isConsequence (yPrecedes.ne_renamed y)
    (apart.imp_right And.right) concluded
  rw [created'', created', created] at introduced
  unfold Proves detour
  rw [outcome_bind_of_ok ok, outcome_bind_of_ok ok', outcome_bind_of_ok ok'']
  exact introduced

end Kernel

namespace Run

variable {run : Run}

/-- Whenever modus ponens under an existential quantifier succeeds, so does the detour over
a witness. Both conclude the same up to the choice of bound variables, and exactly the same
if no bound variable had to be renamed. -/
theorem Reachable.detour_agrees (reachable : run.Reachable) {all existence direct : Proof}
    (allHeld : run.Holds (.proof all)) (existenceHeld : run.Holds (.proof existence))
    {x y : Object} {a b a' : Proposition}
    (isUniversal : all.conclusion = .quantified .universal x (a.implies b))
    (isExistential : existence.conclusion = .quantified .existential y a')
    (xAnywhere : x.owner = none) (yAnywhere : y.owner = none) {after : Store}
    (ok : outcome (Kernel.quantifiedModusPonens all existence) run.store = (.ok direct, after))
    {later : Store} (le : run.store.created ≤ later.created) :
    ∃ conclusion created,
      Proves (Kernel.detour all existence y) later conclusion created ∧
      conclusion.nameless = direct.conclusion.nameless ∧
      (after.created = run.store.created → (conclusion == direct.conclusion) = true) := by
  have allPrecedes := (reachable.within allHeld).conclusion.precedes
  have existencePrecedes := (reachable.within existenceHeld).conclusion.precedes
  have precedes := existencePrecedes
  rw [isExistential] at precedes
  rw [isUniversal] at allPrecedes
  obtain ⟨yPrecedes, bodyPrecedes⟩ := List.forall_mem_cons.mp precedes
  obtain ⟨xPrecedes, implicationPrecedes⟩ := List.forall_mem_cons.mp allPrecedes
  have bPrecedes : b.Precedes run.store.created :=
    (List.forall_mem_append.mp implicationPrecedes).2
  obtain ⟨notFree, notCaptured, agrees, isConclusion, created⟩ :=
    Kernel.conditions_of_quantifiedModusPonens isUniversal isExistential bodyPrecedes ok
  have avoids : b.Avoids (y.renamed later.created) :=
    Proposition.Precedes.avoids (bPrecedes.mono le) y
  refine ⟨_, _, Kernel.proves_detour isUniversal isExistential xAnywhere yAnywhere
    (Proposition.Precedes.mono implicationPrecedes le) (existencePrecedes.mono le) notFree
    notCaptured agrees, ?_, fun same => ?_⟩
  · rw [isConclusion]
    refine congrArg (Nameless.quantified .existential y.owner) ?_
    refine Proposition.namelessIn_substitute_replace bPrecedes xPrecedes yPrecedes
      (Nat.le_succ_of_le le) avoids ?_ _
    rw [Object.key_renamed]
    exact Nat.le_refl _
  · have notRenamed : b.captures x y = false :=
      Proposition.not_captures_of_count bPrecedes yPrecedes (created.symm.trans same)
    rw [isConclusion, avoids.substitute_replace notRenamed,
      Proposition.substitute_of_not_captures notRenamed]
    exact Proposition.beq_refl _

/-- The inner `y` is renamed on both ways. -/
theorem Reachable.detour_agrees_relating :
    ∃ direct after conclusion created,
      outcome (Kernel.quantifiedModusPonens Sample.ofRelated Sample.ofSome)
        Sample.relating.store = (.ok direct, after) ∧ after.created = 5 ∧
      Proves (Kernel.detour Sample.ofRelated Sample.ofSome Sample.freeY) after conclusion
        created ∧
      conclusion.nameless = direct.conclusion.nameless := by
  have isRenamed : ((Sample.said "P" Sample.freeX).implies Sample.related).substitute
      Sample.freeX Sample.freeY 4 =
      ((Sample.said "P" Sample.freeY).implies (.quantified .existential (Sample.freeY.renamed 4)
        (.atom "R" [.object Sample.freeY, .object (Sample.freeY.renamed 4)])), 5) := by
    have notX : Sample.freeY.key ≠ Sample.freeX.key := by decide
    have occurs : (Proposition.atom "R" [.object Sample.freeX, .object Sample.freeY]).occurs
      Sample.freeX = true := rfl
    simp only [Proposition.implies, Proposition.substitute_binary, Sample.said, Sample.related,
      Proposition.substitute_captured notX rfl occurs, Proposition.substitute_atom]
    rfl
  have proves : Proves (Kernel.quantifiedModusPonens Sample.ofRelated Sample.ofSome)
      Sample.relating.store _ _ :=
    Kernel.proves_quantifiedModusPonens rfl rfl (.inr rfl) (.inl rfl)
      (congrArg Prod.fst isRenamed) rfl
  obtain ⟨direct, after, ok, _, created⟩ := proves
  have isFive : after.created = 5 := created.trans (congrArg Prod.snd isRenamed)
  have le : Sample.relating.store.created ≤ after.created := by
    rw [isFive]
    decide
  obtain ⟨conclusion, last, detours, agrees, _⟩ := Sample.reachable_relating.detour_agrees
    (.result List.mem_cons_self List.mem_cons_self)
    (.result (List.mem_of_getElem? (i := 1) rfl) List.mem_cons_self) rfl rfl rfl rfl ok le
  exact ⟨direct, after, conclusion, last, ok, isFive, detours, agrees⟩

end Run

/-! ## Witnesses and their sets

A witness belongs to the set of its variable, but only a number set takes what belongs to it
as an element. -/

namespace Store

variable {store : Store} {x : Object} {set : Collection}

theorem find_of_domain (isDomain : store.domain x = .ok (some set)) :
    store.find set.id = some set := by
  have isOwner := (owner_of_domain_some isDomain).1
  rw [domain, isOwner] at isDomain
  dsimp only at isDomain
  split at isDomain
  · rename_i isFound
    cases isDomain
    exact isFound
  · cases isDomain

theorem domain_of_find (isOwner : x.owner = some set.id) (isFound : store.find set.id = some set) :
    store.domain x = .ok (some set) := by
  simp only [domain, isOwner, isFound]

theorem contains_of_owner (isNumber : set.numberKind.isSome = true)
    (isOwner : x.owner = some set.id) (isFound : store.find set.id = some set) :
    store.contains set x = true := by
  cases set with
  | number numbers =>
      have isOwned : store.owner x = some (.number numbers) := by rw [owner, isOwner]; exact isFound
      have belongs : store.belongs numbers x = true := by
        simp [Store.belongs, isOwned, Collection.id]
      rw [contains, containsNumber, NumberSet.chain_eq_cons, List.any_cons, containsAtLevel,
        belongs]
      simp
  | _ => cases isNumber

/-- What is created next is in no set yet, except that a number set contains what belongs
to it. -/
theorem not_contains_renamed {created : Nat}
    (precede : ∀ y ∈ store.members set.id, y.key.Precedes created)
    (notNumber : set.numberKind.isSome = false) (x : Object) :
    store.contains set (x.renamed created) = false := by
  cases set with
  | plain id name =>
      apply Bool.eq_false_iff.mpr
      intro contains
      obtain ⟨y, member, equal⟩ := List.contains_iff_exists_mem_beq.mp contains
      exact (precede y member).ne_renamed x (Object.beq_iff_key.mp equal).symm
  | number numbers => cases notNumber
  | product id name factors => rfl
  | function id name domain range mapping => rfl

end Store

namespace Run

variable {run : Run}

/-- The witness of an existence in a number set is an element of it as long as the set exists,
so that all that holds of its elements can be applied to the witness. In any other set it has
to be inserted first. -/
theorem Reachable.witness_contained_by_kind (reachable : run.Reachable) {existence : Proof}
    {x : Object} {body : Proposition} {set : Collection}
    (isExistential : existence.conclusion = .quantified .existential x body)
    (isDomain : run.store.domain x = .ok (some set)) :
    ∃ witness proof after,
      outcome (Kernel.existentialResolution existence) run.store = (.ok (witness, proof), after) ∧
      witness.owner = some set.id ∧ after.find set.id = some set ∧
      (set.numberKind.isSome = true → ∀ later : Store, later.find set.id = some set →
        later.contains set witness = true ∧
        ∀ all z c, all.conclusion = .quantified .universal z c → z.owner = some set.id →
          ∃ proof, (outcome (Kernel.universalResolution all witness) later).1 = .ok proof) ∧
      (set.numberKind.isSome = false → after.contains set witness = false ∧
        ∀ all z c, all.conclusion = .quantified .universal z c → z.owner = some set.id →
          outcome (Kernel.universalResolution all witness) after =
            (.error (.notMember witness set), after)) := by
  obtain ⟨proof, after, ok, _, _, living, members⟩ :=
    Kernel.exists_existentialResolution isExistential isDomain
  have isOwner : (x.renamed run.store.created).owner = some set.id :=
    (Store.owner_of_domain_some isDomain).1
  have isFound : after.find set.id = some set := by
    rw [Store.find, living]
    exact Store.find_of_domain isDomain
  refine ⟨_, proof, after, ok, isOwner, isFound, fun isNumber later isFound => ?_,
    fun notNumber => ?_⟩
  · have contains := Store.contains_of_owner isNumber isOwner isFound
    refine ⟨contains, fun all z c isUniversal zOwner => ?_⟩
    rw [Kernel.exists_universalResolution_iff]
    exact ⟨z, c, isUniversal, .inr ⟨set, Store.domain_of_find zOwner isFound, contains⟩⟩
  · have precede : ∀ y ∈ after.members set.id, y.key.Precedes run.store.created := by
      intro y member
      rw [members] at member
      exact (reachable.created_all.1.members set.id y member).precedes
    have outside := Store.not_contains_renamed precede notNumber x
    refine ⟨outside, fun all z c isUniversal zOwner => ?_⟩
    exact Kernel.outcome_universalResolution_of_not_contains isUniversal
      (Store.domain_of_find zOwner isFound) outside

theorem Reachable.witness_contained_by_kind_counting :
    ∃ witness proof after,
      outcome (Kernel.existentialResolution Sample.ofSomeCount) Sample.ranging.store =
        (.ok (witness, proof), after) ∧
      after.contains Sample.counting witness = true ∧
      ∃ proof, (outcome (Kernel.universalResolution Sample.ofAllCounts witness) after).1 =
        .ok proof := by
  have isDomain : Sample.ranging.store.domain Sample.count = .ok (some Sample.counting) := rfl
  obtain ⟨witness, proof, after, ok, _, isFound, contained, _⟩ :=
    Sample.reachable_ranging.witness_contained_by_kind
      (show Sample.ofSomeCount.conclusion = _ from rfl) isDomain
  obtain ⟨contains, resolves⟩ := contained rfl after isFound
  exact ⟨witness, proof, after, ok, contains, resolves Sample.ofAllCounts _ _ rfl rfl⟩

/-- The witness of `∃s, P(s)` is not in `S`, and `∀s, Q(s)` does not apply to it. -/
theorem Reachable.witness_outside_persons :
    Sample.ranging.Reachable ∧ Sample.ranging.Holds (.proof Sample.ofSomePerson) ∧
      Sample.ranging.Holds (.proof Sample.ofAllPersons) ∧
      Sample.ranging.store.domain Sample.person = .ok (some Sample.persons) ∧
      ∃ witness proof after,
        outcome (Kernel.existentialResolution Sample.ofSomePerson) Sample.ranging.store =
          (.ok (witness, proof), after) ∧
        after.owner witness = some Sample.persons ∧
        after.contains Sample.persons witness = false ∧
        outcome (Kernel.universalResolution Sample.ofAllPersons witness) after =
          (.error (.notMember witness Sample.persons), after) :=
  ⟨Sample.reachable_ranging, .result (List.mem_of_getElem? (i := 3) rfl) List.mem_cons_self,
    .result (List.mem_of_getElem? (i := 2) rfl) List.mem_cons_self, rfl, _, _, _, rfl, rfl, rfl,
    rfl⟩

end Run

end Deduction
