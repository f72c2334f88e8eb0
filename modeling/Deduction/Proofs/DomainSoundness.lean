import Deduction.Proofs.Provenance
import Deduction.Proofs.RuleSoundness

/-! # Soundness with domains

A bound variable that belongs to a set may be read as ranging over a part of the
domain. The rules that replace a variable look at its set; those that compare
propositions do not, and neither does the introduction of an existence. So rules
are sound in this reading as far as such ranges do not get lost. -/

namespace Deduction

open Session (Item)
open Kernel

universe u

variable {D : Type u}

/-- Variables without a set range over the whole domain. The range of a set that
exists has a value, contains the values of the elements that are held, and contains
the range of every set that is included. -/
structure Interpretation.Respects (I : Interpretation D) (values : Assignment D)
    (run : Run) : Prop where
  unowned : ∀ d, I.range none d
  inhabited : ∀ set ∈ run.store.living, ∃ d, I.range (some set.id) d
  contains : ∀ set ∈ run.store.living, ∀ x, run.Holds (.object x) →
    run.store.contains set x = true → I.range (some set.id) (values x.key)
  includes : ∀ larger ∈ run.store.living, ∀ smaller ∈ run.store.living,
    larger.includes smaller = true →
    ∀ d, I.range (some smaller.id) d → I.range (some larger.id) d

namespace Interpretation.Respects

variable {I : Interpretation D} {values : Assignment D} {run : Run} {x y : Object}

theorem range_of_admits (respects : I.Respects values run) (admits : run.store.Admits x y)
    (held : run.Holds (.object y)) : I.range x.owner (values y.key) := by
  rcases admits with isUnowned | ⟨set, isDomain, contains⟩
  · rw [isUnowned]
    exact respects.unowned _
  · obtain ⟨isOwner, living⟩ := Store.owner_of_domain_some isDomain
    rw [isOwner]
    exact respects.contains set living y held contains

theorem range_of_narrows (respects : I.Respects values run) (narrows : run.store.Narrows x y)
    (d : D) (inRange : I.range y.owner d) : I.range x.owner d := by
  rcases narrows with isUnowned | ⟨larger, smaller, isLarger, isSmaller, includes⟩
  · rw [isUnowned]
    exact respects.unowned d
  · obtain ⟨isOuter, largerLiving⟩ := Store.owner_of_domain_some isLarger
    obtain ⟨isInner, smallerLiving⟩ := Store.owner_of_domain_some isSmaller
    rw [isOuter]
    rw [isInner] at inRange
    exact respects.includes larger largerLiving smaller smallerLiving includes d inRange

end Interpretation.Respects

namespace Run

/-! ## Sample

There is a variable `x` in a set `S` and an equal one in none. The set has the
element `a`, but not `b`. The sample asserts `P(x)` of all elements of `S`, that
`B` follows if `P(x)` holds of everything, and `Q(b)`. -/

namespace Sample

def domain : Collection := .plain 1 "S"

def inDomain : Object := ⟨1, "x", some 1, []⟩

def anywhere : Object := ⟨2, "x", none, []⟩

def insider : Object := ⟨3, "a", none, []⟩

def outsider : Object := ⟨4, "b", none, []⟩

def allInDomain : Proposition :=
  .quantified .universal inDomain (.atom "P" [.object inDomain])

def allAnywhere : Proposition :=
  .quantified .universal anywhere (.atom "P" [.object anywhere])

def creations : Run :=
  ((((start.after (.plainSet "S")).after (.objectIn "x" domain)).after (.object "x")).after
    (.object "a")).after (.object "b")

def assertAll : Call :=
  .assume (.universal "A" (.generic "P" [("x", .object)])) [("x", some (.object inDomain))]

def assertImplication : Call :=
  .assume (.implies "I" (.settled allAnywhere) (.nullary "B")) []

def assertOutsider : Call :=
  .assume (.generic "Q" [("y", .object)]) [("y", some (.object outsider))]

def assertions : Run :=
  (((creations.after (.insert domain insider)).after assertAll).after assertImplication).after
    assertOutsider

def ofBody : Proof := ⟨1, .atom "P" [.object inDomain], .postulate, []⟩

def ofAll : Proof := ⟨2, allInDomain, .postulate, [ofBody]⟩

def ofImplication : Proof := ⟨3, allAnywhere.implies (.atom "B" []), .postulate, []⟩

def ofOutsider : Proof := ⟨4, .atom "Q" [.object outsider], .postulate, []⟩

/-- `P` holds of `true`, `Q` of `false` and `B` not; in `S` there is only `true`. -/
def truthOnly : Interpretation Bool where
  atom name arguments :=
    name = "P" ∧ arguments = [.value true] ∨ name = "Q" ∧ arguments = [.value false]
  member _ _ := False
  ordered _ _ _ := False
  range owner d := owner = none ∨ d = true

def insiderTrue : Assignment Bool :=
  fun key => decide (key = insider.key)

theorem reachable_creations : creations.Reachable := by
  have formed : (start.after (.plainSet "S")).Reachable :=
    .after .start fun _ member => nomatch member
  have owned : ((start.after (.plainSet "S")).after (.objectIn "x" domain)).Reachable := by
    refine .after formed fun item member => ?_
    rw [List.mem_singleton.mp member]
    exact .result List.mem_cons_self List.mem_cons_self
  refine .after (.after (.after owned ?_) ?_) ?_ <;> exact fun _ member => nomatch member

theorem reachable_assertions : assertions.Reachable := by
  have inserted : (creations.after (.insert domain insider)).Reachable := by
    refine .after reachable_creations fun item member => ?_
    rcases List.mem_cons.mp member with rfl | isElement
    · exact .result (List.mem_of_getElem? (i := 4) rfl) List.mem_cons_self
    · rw [List.mem_singleton.mp isElement]
      exact .result (List.mem_of_getElem? (i := 1) rfl) List.mem_cons_self
  have first : ((creations.after (.insert domain insider)).after assertAll).Reachable := by
    refine .after inserted fun item member => ?_
    rcases List.mem_cons.mp member with rfl | isValue
    · exact .quantify _ _ _ (.generic _ _)
    · rw [List.mem_singleton.mp isValue]
      exact .result (List.mem_of_getElem? (i := 4) rfl) List.mem_cons_self
  have second : (((creations.after (.insert domain insider)).after assertAll).after
      assertImplication).Reachable := by
    refine .after first fun item member => ?_
    rw [List.mem_singleton.mp member]
    refine .combine _ _ (.proposition (fun x isObject => ?_) fun _ member => nomatch member)
      (.generic _ _)
    have isVariable : x = anywhere := by
      simpa [allAnywhere, Proposition.objects, Argument.objects] using isObject
    rw [isVariable]
    exact .result (List.mem_of_getElem? (i := 4) rfl) List.mem_cons_self
  refine .after second fun item member => ?_
  rcases List.mem_cons.mp member with rfl | isValue
  · exact .generic _ _
  · rw [List.mem_singleton.mp isValue]
    exact .result (List.mem_of_getElem? (i := 3) rfl) List.mem_cons_self

theorem respects_truthOnly : truthOnly.Respects insiderTrue assertions where
  unowned _ := .inl rfl
  inhabited _ _ := ⟨true, .inr rfl⟩
  contains set living x _ contains := by
    cases List.mem_singleton.mp living
    have isInsider : (x == insider || false) = true := contains
    rw [Bool.or_false, Object.beq_iff_key] at isInsider
    exact .inr (decide_eq_true isInsider)
  includes _ _ _ _ _ d inRange := .inr (inRange.resolve_left (Option.some_ne_none _))

end Sample

/-! ## Rules in a run -/

variable {run : Run}

theorem suits_of_respects {call : RuleCall} (held : ∀ item ∈ call.operands, run.Holds item)
    {I : Interpretation D} {values : Assignment D} (respects : I.Respects values run)
    (compared : ∀ p q, call.Compares p q → I.RangesAlike p q)
    (introduced : ∀ p y x, call = .existentialIntroduction p y x →
      I.range x.owner (values y.key)) : I.Suits values run.store call where
  compares := compared _ _
  admits admits member :=
    respects.range_of_admits admits
      (held (.object _) (List.mem_append_right _ (List.mem_map_of_mem member)))
  narrows := respects.range_of_narrows
  introduces := introduced _ _ _

/-- Every rule is sound if the propositions that it compares have the same ranges
at their bound variables and an introduced existence is witnessed in its range. The
witness of a resolved existence has a value in the range of the variable. -/
theorem Reachable.holds_of_rule_in_domains (reachable : run.Reachable) {call : RuleCall}
    (held : ∀ item ∈ call.operands, run.Holds item) (I : Interpretation D)
    (values : Assignment D) (respects : I.Respects values run)
    (compared : ∀ p q, call.Compares p q → I.RangesAlike p q)
    (introduced : ∀ p y x, call = .existentialIntroduction p y x →
      I.range x.owner (values y.key))
    (premisesHold : ∀ premise ∈ call.premises, I.Holds values premise.conclusion)
    {proof : Proof} (issued : .proof proof ∈ run.results (.rule call)) :
    (call.rule ≠ .existentialResolution → I.Holds values proof.conclusion) ∧
      ∀ existence, call = .existentialResolution existence →
        ∃ witness x body d, run.results (.rule call) = [.object witness, .proof proof] ∧
          existence.conclusion = .quantified .existential x body ∧ I.range x.owner d ∧
          I.Holds (Function.update values witness.key d) proof.conclusion := by
  have precedes := reachable.precedes_of_held held
  constructor
  · intro noWitness
    obtain ⟨items, performed, areResults⟩ := ok_of_mem_results issued
    have issues := RuleCall.issues_of_perform performed (areResults ▸ issued)
    exact Interpretation.holds_of_yields issues.yields noWitness precedes
      (suits_of_respects held respects compared introduced) premisesHold
  · rintro existence rfl
    obtain ⟨witness, proof', ok, areResults⟩ := ok_of_mem_resolution issued
    have isProof : proof = proof' := by
      rw [areResults] at issued
      simpa using issued
    subst isProof
    obtain ⟨x, body, isExistential, rfl, isConclusion, _⟩ := ok_of_existentialResolution ok
    have existenceHolds := premisesHold existence List.mem_cons_self
    have existencePrecedes := precedes.1 existence List.mem_cons_self
    rw [isExistential] at existenceHolds existencePrecedes
    obtain ⟨d, inRange, holds⟩ :=
      Interpretation.holds_of_existentialResolution existencePrecedes existenceHolds
    exact ⟨_, x, body, d, areResults, isExistential, inRange, isConclusion ▸ holds⟩

theorem Reachable.holds_of_rule_in_domains_insider :
    Sample.truthOnly.Respects Sample.insiderTrue Sample.assertions ∧
      ∃ proof, .proof proof ∈ Sample.assertions.results
          (.rule (.universalResolution Sample.ofAll Sample.insider)) ∧
        Sample.truthOnly.Holds Sample.insiderTrue proof.conclusion := by
  have held : ∀ item ∈ (RuleCall.universalResolution Sample.ofAll Sample.insider).operands,
      Sample.assertions.Holds item := by
    intro item member
    rcases List.mem_cons.mp member with rfl | isElement
    · exact .result (List.mem_of_getElem? (i := 2) rfl) List.mem_cons_self
    · rw [List.mem_singleton.mp isElement]
      exact .result (List.mem_of_getElem? (i := 5) rfl) List.mem_cons_self
  refine ⟨Sample.respects_truthOnly, _, List.mem_cons_self, ?_⟩
  refine (Sample.reachable_assertions.holds_of_rule_in_domains held Sample.truthOnly
    Sample.insiderTrue Sample.respects_truthOnly (fun _ _ compares => nomatch compares)
    (fun _ _ _ isIntroduction => nomatch isIntroduction) ?_ List.mem_cons_self).1 (by decide)
  intro premise member
  cases List.mem_singleton.mp member
  exact fun d inRange => .inl ⟨rfl, by rw [inRange.resolve_left (Option.some_ne_none _)]; rfl⟩

/-! ## Where ranges get lost -/

/-- The rule leads from truth to falsity although the ranges are those of the sets. -/
structure Misleads (run : Run) (call : RuleCall) (I : Interpretation D)
    (values : Assignment D) : Prop where
  held : ∀ item ∈ call.operands, run.Holds item
  respects : I.Respects values run
  premisesHold : ∀ premise ∈ call.premises, I.Holds values premise.conclusion
  concludes : ∃ proof, .proof proof ∈ run.results (.rule call) ∧ ¬I.Holds values proof.conclusion

/-- Modus ponens takes `∀x ∈ S, P(x)` for `∀x, P(x)`, and `Q(b)` is taken for an
existence in `S` even if `b` is not an element. -/
theorem Reachable.misleads_of_lost_range :
    Sample.assertions.Reachable ∧
      Sample.assertions.Misleads (.modusPonens Sample.ofImplication Sample.ofAll)
        Sample.truthOnly Sample.insiderTrue ∧
      Sample.assertions.Misleads
        (.existentialIntroduction Sample.ofOutsider Sample.outsider Sample.inDomain)
        Sample.truthOnly Sample.insiderTrue := by
  refine ⟨Sample.reachable_assertions, ⟨?_, Sample.respects_truthOnly, ?_, ?_⟩,
    ⟨?_, Sample.respects_truthOnly, ?_, ?_⟩⟩
  · intro item member
    rcases List.mem_cons.mp member with rfl | isAll
    · exact .result (List.mem_of_getElem? (i := 1) rfl) List.mem_cons_self
    · rw [List.mem_singleton.mp isAll]
      exact .result (List.mem_of_getElem? (i := 2) rfl) List.mem_cons_self
  · intro premise member
    rcases List.mem_cons.mp member with rfl | isAll
    · -- Not everything is `true`, so nothing is claimed of `B`.
      intro all
      have ofFalse := all false (.inl rfl)
      simp [Sample.truthOnly, Interpretation.Holds, Argument.referent] at ofFalse
    · rw [List.mem_singleton.mp isAll]
      exact fun d inRange => .inl ⟨rfl, by rw [inRange.resolve_left (Option.some_ne_none _)]; rfl⟩
  · refine ⟨⟨5, .atom "B" [], .modusPonens, [Sample.ofImplication, Sample.ofAll]⟩,
      List.mem_cons_self, ?_⟩
    simp [Sample.truthOnly, Interpretation.Holds]
  · intro item member
    simp only [RuleCall.operands, RuleCall.premises, RuleCall.statements, RuleCall.objects,
      List.map_cons, List.map_nil, List.append_nil, List.cons_append, List.nil_append,
      List.mem_cons, List.not_mem_nil, or_false] at member
    rcases member with rfl | rfl | rfl
    · exact .result List.mem_cons_self List.mem_cons_self
    · exact .result (List.mem_of_getElem? (i := 4) rfl) List.mem_cons_self
    · exact .result (List.mem_of_getElem? (i := 7) rfl) List.mem_cons_self
  · intro premise member
    rw [List.mem_singleton.mp member]
    exact .inr ⟨rfl, rfl⟩
  · let body : Proposition := (Sample.ofOutsider.conclusion.substitute Sample.outsider
      Sample.inDomain 4).1
    refine ⟨⟨5, .quantified .existential Sample.inDomain body, .existentialIntroduction,
      [Sample.ofOutsider]⟩, List.mem_cons_self, ?_⟩
    rintro ⟨d, inRange, holds⟩
    have isTrue : d = true := inRange.resolve_left (Option.some_ne_none _)
    have isBody : body = .atom "Q" [.object Sample.inDomain] := by
      simp [body, Sample.ofOutsider, Argument.replace, Object.replace, Object.beq_iff_key]
    rw [isBody, isTrue] at holds
    simp [Sample.truthOnly, Interpretation.Holds, Argument.referent] at holds

end Run

end Deduction
