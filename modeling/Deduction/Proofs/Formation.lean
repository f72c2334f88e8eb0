import Deduction.Proofs.Binding
import Deduction.Proofs.Provenance
import Deduction.Proofs.Update
import Mathlib.Data.List.Nodup

/-! # Formation

Sets are numbered in the order of their formation. All sets that a caller holds, that
exist, or that one of these was formed of have been formed by calls of the run, and no
two of them have the same number. -/

namespace Deduction

open Session (Item)

/-! ## Sets of values -/

section Sets

variable (known : Collection → Prop)

def Proposition.SetsAmong (p : Proposition) : Prop :=
  ∀ set ∈ p.sets, known set

def Argument.SetsAmong (argument : Argument) : Prop :=
  ∀ set ∈ argument.sets, known set

def Slot.SetsAmong (slot : Slot) : Prop :=
  ∀ value, slot.value = some value → value.SetsAmong known

def Schema.SetsAmong : Schema → Prop
  | .settled p => p.SetsAmong known
  | .elementary _ slots _ => ∀ slot ∈ slots, slot.SetsAmong known
  | .binary _ slots left _ right =>
      (∀ slot ∈ slots, slot.SetsAmong known) ∧ left.SetsAmong ∧ right.SetsAmong
  | .quantified _ slots _ inner => (∀ slot ∈ slots, slot.SetsAmong known) ∧ inner.SetsAmong

def Proof.SetsAmong (proof : Proof) : Prop :=
  ∀ node : Proof, node.IsNodeOf proof → node.conclusion.SetsAmong known

def Reduction.SetsAmong : Reduction → Prop
  | .unfinished schema => schema.SetsAmong known
  | .complete statement => statement.SetsAmong known
  | .asserted proof => proof.SetsAmong known

/-- All sets that can be read off the value have the given property. -/
def Session.Item.SetsAmong : Item → Prop
  | .object _ => True
  | .set s => known s
  | .proposition p => p.SetsAmong known
  | .schema s => s.SetsAmong known
  | .reduction r => r.SetsAmong known
  | .proof p => p.SetsAmong known
  | .cursor _ => True

end Sets

section Parts

variable {known known' : Collection → Prop}

namespace Proposition

@[simp] theorem setsAmong_falsum : falsum.SetsAmong known :=
  fun _ member => nomatch member

@[simp] theorem setsAmong_binary {left right : Proposition} {connective : Connective} :
    (binary left connective right).SetsAmong known ↔
      left.SetsAmong known ∧ right.SetsAmong known := by
  simp only [SetsAmong, sets, List.mem_append, or_imp, forall_and]

@[simp] theorem setsAmong_quantified {quantifier : Quantifier} {bound : Object}
    {body : Proposition} :
    (quantified quantifier bound body).SetsAmong known ↔ body.SetsAmong known :=
  Iff.rfl

@[simp] theorem setsAmong_not {p : Proposition} : p.not.SetsAmong known ↔ p.SetsAmong known := by
  unfold Proposition.not
  split <;> simp

@[simp] theorem setsAmong_substitute {p : Proposition} {old new : Object} {created : Nat} :
    (p.substitute old new created).1.SetsAmong known ↔ p.SetsAmong known := by
  rw [SetsAmong, sets_substitute, SetsAmong]

end Proposition

theorem Proof.setsAmong_of_premises {proof : Proof}
    (conclusion : proof.conclusion.SetsAmong known)
    (premises : ∀ premise ∈ proof.premises, premise.SetsAmong known) : proof.SetsAmong known := by
  intro node isNode
  cases isNode with
  | root => exact conclusion
  | above member isNode => exact premises _ member node isNode

theorem Proof.setsAmong_postulated (certified : Nat) {p : Proposition}
    (among : p.SetsAmong known) : (Proof.postulated certified p).SetsAmong known := by
  unfold postulated
  split
  · refine setsAmong_of_premises among fun premise member => ?_
    rw [List.mem_singleton.mp member]
    exact setsAmong_of_premises (Proposition.setsAmong_quantified.mp among)
      fun _ member => nomatch member
  · exact setsAmong_of_premises among fun _ member => nomatch member

theorem Argument.setsAmong_item {argument : Argument} :
    argument.item.SetsAmong known ↔ argument.SetsAmong known := by
  cases argument <;> simp [item, Item.SetsAmong, SetsAmong, sets]

theorem Schema.setsAmong_item {schema : Schema} :
    schema.item.SetsAmong known ↔ schema.SetsAmong known := by
  cases schema <;> exact Iff.rfl

theorem Slot.setsAmong_declared (parameters : List (String × ArgumentKind)) :
    ∀ slot ∈ parameters.map declare, slot.SetsAmong known :=
  List.forall_mem_map.mpr fun _ _ _ isValue => nomatch isValue

theorem Schema.SetsAmong.slots {schema : Schema} (among : schema.SetsAmong known) :
    ∀ slot ∈ schema.slots, slot.SetsAmong known := by
  cases schema with
  | settled statement => exact fun slot member => nomatch member
  | elementary name slots form => exact among
  | binary name slots left connective right => exact among.1
  | quantified name slots quantifier inner => exact among.1

theorem Schema.SetsAmong.bound {schema : Schema} (among : schema.SetsAmong known)
    {parameter : String} {value : Argument} (member : (parameter, value) ∈ schema.bound) :
    value.SetsAmong known := by
  obtain ⟨slot, slotMember, isBound⟩ := List.mem_filterMap.mp member
  obtain ⟨value', isValue, equal⟩ := Option.map_eq_some_iff.mp isBound
  cases equal
  exact among.slots slot slotMember value isValue

/-! ## Later runs -/

theorem Proposition.SetsAmong.mono {p : Proposition} (imp : ∀ set, known set → known' set)
    (among : p.SetsAmong known) : p.SetsAmong known' :=
  fun set member => imp set (among set member)

theorem Slot.SetsAmong.mono {slot : Slot} (imp : ∀ set, known set → known' set)
    (among : slot.SetsAmong known) : slot.SetsAmong known' :=
  fun value isValue set member => imp set (among value isValue set member)

theorem Schema.SetsAmong.mono {schema : Schema} (imp : ∀ set, known set → known' set)
    (among : schema.SetsAmong known) : schema.SetsAmong known' := by
  induction schema with
  | settled statement => exact Proposition.SetsAmong.mono imp among
  | elementary name slots form => exact fun slot member => (among slot member).mono imp
  | binary name slots left connective right leftInduction rightInduction =>
      exact ⟨fun slot member => (among.1 slot member).mono imp, leftInduction among.2.1,
        rightInduction among.2.2⟩
  | quantified name slots quantifier inner induction =>
      exact ⟨fun slot member => (among.1 slot member).mono imp, induction among.2⟩

theorem Proof.SetsAmong.mono {proof : Proof} (imp : ∀ set, known set → known' set)
    (among : proof.SetsAmong known) : proof.SetsAmong known' :=
  fun node isNode => (among node isNode).mono imp

theorem Session.Item.SetsAmong.mono {item : Item} (imp : ∀ set, known set → known' set)
    (among : item.SetsAmong known) : item.SetsAmong known' := by
  cases item with
  | object x => trivial
  | set s => exact imp s among
  | proposition p => exact Proposition.SetsAmong.mono imp among
  | schema schema => exact Schema.SetsAmong.mono imp among
  | reduction reduction =>
      cases reduction with
      | unfinished schema => exact Schema.SetsAmong.mono imp among
      | complete statement => exact Proposition.SetsAmong.mono imp among
      | asserted proof => exact Proof.SetsAmong.mono imp among
  | proof proof => exact Proof.SetsAmong.mono imp among
  | cursor cursor => trivial

/-! ## Schemas -/

namespace Schema

open Inference (ok_of_bind)

variable {schema bound part : Schema} {parameter : String} {value : Argument} {p : Proposition}

theorem exists_slot_of_setAt {index : Nat} {s : Collection} (ok : schema.setAt index = .ok s) :
    ∃ slot ∈ schema.slots, slot.value = some (.set s) := by
  unfold setAt at ok
  split at ok
  · rename_i isSlot
    cases ok
    exact ⟨_, List.mem_of_getElem? isSlot, rfl⟩
  · cases ok
  · cases ok

theorem SetsAmong.elementaryStatement {name : String} {slots : List Slot} {form : Form}
    (among : (elementary name slots form).SetsAmong known)
    (ok : elementaryStatement name slots form = .ok p) : p.SetsAmong known := by
  have ofSet : ∀ {index s}, (elementary name slots form).setAt index = .ok s → known s := by
    intro index s isSet
    obtain ⟨slot, member, isValue⟩ := exists_slot_of_setAt isSet
    exact among slot member _ isValue s List.mem_cons_self
  cases form with
  | generic =>
      cases ok
      intro set member
      obtain ⟨argument, isArgument, inArgument⟩ := List.mem_flatMap.mp member
      obtain ⟨slot, slotMember, isValue⟩ := List.mem_filterMap.mp isArgument
      exact among slot slotMember argument isValue set inArgument
  | membership =>
      obtain ⟨x, _, ok⟩ := ok_of_bind ok
      obtain ⟨s, isSet, ok⟩ := ok_of_bind ok
      cases ok
      simpa [Proposition.SetsAmong, Proposition.sets] using ofSet isSet
  | ordering relation =>
      obtain ⟨x, _, ok⟩ := ok_of_bind ok
      obtain ⟨y, _, ok⟩ := ok_of_bind ok
      cases ok
      intro set member
      cases member
  | subset =>
      obtain ⟨x, _, ok⟩ := ok_of_bind ok
      obtain ⟨a, isFirst, ok⟩ := ok_of_bind ok
      obtain ⟨b, isSecond, ok⟩ := ok_of_bind ok
      cases ok
      simp only [Proposition.setsAmong_quantified, Proposition.setsAmong_binary]
      simpa [Proposition.SetsAmong, Proposition.sets] using ⟨ofSet isFirst, ofSet isSecond⟩

theorem SetsAmong.statement (among : schema.SetsAmong known) (ok : schema.statement = .ok p) :
    p.SetsAmong known := by
  induction schema generalizing p with
  | settled statement =>
      cases ok
      exact among
  | elementary name slots form => exact among.elementaryStatement ok
  | binary name slots left connective right leftInduction rightInduction =>
      obtain ⟨_, _, ok⟩ := ok_of_bind ok
      obtain ⟨l, isLeft, ok⟩ := ok_of_bind ok
      obtain ⟨_, _, ok⟩ := ok_of_bind ok
      obtain ⟨r, isRight, ok⟩ := ok_of_bind ok
      cases ok
      exact Proposition.setsAmong_binary.mpr
        ⟨leftInduction among.2.1 isLeft, rightInduction among.2.2 isRight⟩
  | quantified name slots quantifier inner induction =>
      obtain ⟨x, _, ok⟩ := ok_of_bind ok
      obtain ⟨_, _, ok⟩ := ok_of_bind ok
      obtain ⟨body, isBody, ok⟩ := ok_of_bind ok
      cases ok
      exact Proposition.setsAmong_quantified.mpr (induction among.2 isBody)

theorem SetsAmong.of_partStep (among : schema.SetsAmong known)
    (step : PartStep parameter value
      (fun schema bound => schema.SetsAmong known → bound.SetsAmong known) schema part) :
    part.SetsAmong known := by
  cases step with
  | untouched _ => exact among
  | unfinished _ _ kept _ => exact kept among
  | settled _ _ kept _ isStatement => exact (kept among).statement isStatement

theorem setsAmong_fill {slots : List Slot} (ofValue : value.SetsAmong known)
    (among : ∀ slot ∈ slots, slot.SetsAmong known) :
    ∀ slot ∈ Slot.fill parameter value slots, slot.SetsAmong known := by
  intro slot member
  rcases Slot.mem_fill member with isOld | isFilled
  · exact among slot isOld
  · intro value' isValue
    cases isFilled.symm.trans isValue
    exact ofValue

theorem SetsAmong.bind (among : schema.SetsAmong known) (ofValue : value.SetsAmong known)
    (ok : schema.bind parameter value = .ok bound) : bound.SetsAmong known := by
  refine bind_induction
    (motive := fun schema bound => schema.SetsAmong known → bound.SetsAmong known) ?_ ?_ ?_ ok among
  · exact fun _ among => setsAmong_fill ofValue among
  · rintro name slots left left' connective right right' _ leftStep rightStep
      ⟨ofSlots, ofLeft, ofRight⟩
    exact ⟨setsAmong_fill ofValue ofSlots, SetsAmong.of_partStep ofLeft leftStep,
      SetsAmong.of_partStep ofRight rightStep⟩
  · rintro name slots quantifier inner inner' _ step ⟨ofSlots, ofInner⟩
    exact ⟨setsAmong_fill ofValue ofSlots, SetsAmong.of_partStep ofInner step⟩

theorem SetsAmong.bindAll {bindings : List (String × Argument)} (among : schema.SetsAmong known)
    (ofValues : ∀ binding ∈ bindings, binding.2.SetsAmong known)
    (ok : schema.bindAll bindings = .ok bound) : bound.SetsAmong known := by
  induction bindings generalizing schema with
  | nil =>
      cases ok
      exact among
  | cons binding bindings induction =>
      obtain ⟨next, isNext, ok⟩ := bindAll_cons_eq_ok_iff.mp ok
      obtain ⟨ofValue, ofValues⟩ := List.forall_mem_cons.mp ofValues
      exact induction (among.bind ofValue isNext) ofValues ok

theorem SetsAmong.reduced {assert : Bool} {certified : Nat} {reduction : Reduction}
    (among : schema.SetsAmong known) (ok : schema.reduced assert certified = .ok reduction) :
    reduction.SetsAmong known := by
  rcases reduced_cases ok with ⟨_, rfl⟩ | ⟨p, _, isStatement, rfl⟩
  · exact among
  · have ofStatement := among.statement isStatement
    cases assert with
    | false => exact ofStatement
    | true => exact Proof.setsAmong_postulated certified ofStatement

end Schema

/-! ## Rules -/

theorem RuleCall.Yields.setsAmong {call : RuleCall} {store : Store} {conclusion : Proposition}
    (yields : call.Yields store conclusion)
    (premises : ∀ premise ∈ call.premises, premise.conclusion.SetsAmong known)
    (statements : ∀ statement ∈ call.statements, statement.SetsAmong known) :
    conclusion.SetsAmong known := by
  cases yields with
  | @quantifiedModusPonens all premise x y _ implication _ _ _ isUniversal _ _ _ isInstance _ =>
      have ofImplication := premises all List.mem_cons_self
      rw [isUniversal, Proposition.setsAmong_quantified] at ofImplication
      have ofInstance : (implication.substitute x y store.created).1.SetsAmong known :=
        Proposition.setsAmong_substitute.mpr ofImplication
      rw [isInstance, Proposition.implies, Proposition.setsAmong_binary] at ofInstance
      exact ofInstance.2
  | _ =>
      simp_all [RuleCall.premises, RuleCall.statements, Proposition.implies, Proposition.and,
        Proposition.or, Proposition.equivalent]

end Parts

/-! ## Results of calls -/

namespace Run

open Kernel

variable {known : Collection → Prop} {run : Run} {call : Call} {item : Item}

theorem setsAmong_of_applySchema {schema : Schema} {bindings : Bindings} {assert : Bool}
    {store after : Store} {reduction : Reduction} (ofSchema : schema.SetsAmong known)
    (ofBindings : ∀ other ∈ bindings.operands, other.SetsAmong known)
    (applied : outcome (applySchema schema bindings assert) store = (.ok reduction, after)) :
    reduction.SetsAmong known := by
  have ok := congrArg Prod.fst applied
  rw [outcome_applySchema] at ok
  obtain ⟨bound, isBound, reduces⟩ := Inference.ok_of_bind ok
  refine (ofSchema.bindAll (fun binding member => ?_) isBound).reduced reduces
  exact Argument.setsAmong_item.mp (ofBindings _ (List.mem_map_of_mem member))

theorem setsAmong_rule {call : RuleCall}
    (operands : ∀ other ∈ call.operands, other.SetsAmong known)
    (member : item ∈ run.results (.rule call)) : item.SetsAmong known := by
  rcases item_of_rule member with ⟨x, rfl⟩ | ⟨proof, rfl⟩
  · trivial
  · obtain ⟨items, performed, areResults⟩ := ok_of_mem_results member
    have issues := RuleCall.issues_of_perform performed (areResults ▸ member)
    have ofPremises : ∀ premise ∈ call.premises, premise.SetsAmong known :=
      fun premise isPremise => operands (.proof premise)
        (List.mem_append_left _ (List.mem_append_left _ (List.mem_map_of_mem isPremise)))
    have ofStatements : ∀ statement ∈ call.statements, statement.SetsAmong known :=
      fun statement isStatement => operands (.proposition statement)
        (List.mem_append_left _ (List.mem_append_right _ (List.mem_map_of_mem isStatement)))
    refine Proof.setsAmong_of_premises ?_ (issues.premises ▸ ofPremises)
    exact issues.yields.setsAmong
      (fun premise isPremise => ofPremises premise isPremise premise .root) ofStatements

/-- A call that forms no sets returns none but those it was made on. -/
theorem setsAmong_results (formsNone : call.formsSets = false)
    (operands : ∀ other ∈ call.operands, other.SetsAmong known)
    (member : item ∈ run.results call) : item.SetsAmong known := by
  have judged : ∀ {statement : Proposition} {rule : Rule} {store after : Store} {proof : Proof},
      statement.SetsAmong known →
      outcome (certify statement rule []) store = (.ok proof, after) → proof.SetsAmong known := by
    intro statement rule store after proof among issued
    obtain ⟨isConclusion, _, arePremises⟩ := ok_of_certify issued
    refine Proof.setsAmong_of_premises (isConclusion ▸ among) ?_
    rw [arePremises]
    exact fun _ member => nomatch member
  cases call with
  | plainSet name => cases formsNone
  | productSet name factors => cases formsNone
  | functionSet name domain range mapping => cases formsNone
  | numberSets => cases formsNone
  | literal numbers name =>
      obtain ⟨items, performed, areResults⟩ := ok_of_mem_results member
      obtain ⟨found, _, _, returned⟩ := ok_of_bind performed
      cases returned
      rw [areResults] at member
      obtain ⟨x, _, rfl⟩ := Option.map_eq_some_iff.mp (Option.mem_toList.mp member)
      trivial
  | insert set x =>
      obtain ⟨items, performed, areResults⟩ := ok_of_mem_results member
      obtain ⟨_, _, _, returned⟩ := ok_of_bind performed
      cases returned
      rw [areResults] at member
      cases member
  | take number cursor =>
      obtain ⟨items, performed, areResults⟩ := ok_of_mem_results member
      obtain ⟨⟨objects, rest⟩, _, _, returned⟩ := ok_of_bind performed
      cases returned
      rw [areResults] at member
      rcases List.mem_cons.mp member with rfl | inObjects
      · trivial
      · obtain ⟨x, _, rfl⟩ := List.mem_map.mp inObjects
        trivial
  | substitute p old new =>
      obtain ⟨result, substituted, rfl, _⟩ := ok_of_mem_single rfl member
      cases substituted
      exact Proposition.setsAmong_substitute.mpr (operands _ List.mem_cons_self)
  | applySchema schema bindings assert =>
      obtain ⟨reduction, applied, rfl, _⟩ := ok_of_mem_single rfl member
      obtain ⟨ofSchema, ofBindings⟩ := List.forall_mem_cons.mp operands
      exact setsAmong_of_applySchema ofSchema ofBindings applied
  | applyReduction reduction bindings assert =>
      obtain ⟨result, applied, rfl, _⟩ := ok_of_mem_single rfl member
      obtain ⟨ofReduction, ofBindings⟩ := List.forall_mem_cons.mp operands
      cases reduction with
      | unfinished schema => exact setsAmong_of_applySchema ofReduction ofBindings applied
      | _ =>
          rw [(Reduction.present_of_applyReduction rfl (congrArg Prod.fst applied)).2]
          exact ofReduction
  | instantiate schema bindings =>
      obtain ⟨statement, instantiated, rfl, _⟩ := ok_of_mem_single rfl member
      obtain ⟨ofSchema, ofBindings⟩ := List.forall_mem_cons.mp operands
      obtain ⟨reduction, middle, applied, returned⟩ := ok_of_bind instantiated
      have ofReduction := setsAmong_of_applySchema ofSchema ofBindings applied
      cases reduction with
      | unfinished schema => cases returned
      | complete statement =>
          cases returned
          exact ofReduction
      | asserted proof =>
          cases returned
          exact ofReduction proof .root
  | assume schema bindings =>
      obtain ⟨proof, assumed, rfl, _⟩ := ok_of_mem_single rfl member
      obtain ⟨ofSchema, ofBindings⟩ := List.forall_mem_cons.mp operands
      obtain ⟨reduction, middle, applied, asserted⟩ := ok_of_bind assumed
      have ofReduction := setsAmong_of_applySchema ofSchema ofBindings applied
      cases reduction with
      | asserted proof' =>
          cases asserted
          exact ofReduction
      | _ => cases asserted
  | assertedProof reduction =>
      obtain ⟨proof, returned, rfl, _⟩ := ok_of_mem_single rfl member
      have ofReduction := operands _ List.mem_cons_self
      cases reduction with
      | asserted proof' =>
          cases returned
          exact ofReduction
      | _ => cases returned
  | proveMembership statement =>
      obtain ⟨proof, proved, rfl, _⟩ := ok_of_mem_single rfl member
      obtain ⟨_, _, _, proved⟩ := ok_of_bind proved
      obtain ⟨_, _, _, issued⟩ := ok_of_bind proved
      exact judged (operands _ List.mem_cons_self) issued
  | proveOrdering statement =>
      obtain ⟨proof, proved, rfl, _⟩ := ok_of_mem_single rfl member
      obtain ⟨_, _, _, issued⟩ := ok_of_bind proved
      exact judged (operands _ List.mem_cons_self) issued
  | rule call => exact setsAmong_rule operands member
  | _ =>
      obtain ⟨_, _, rfl, _⟩ := ok_of_mem_single rfl member
      trivial

end Run

/-! ## Formed sets -/

theorem Mapping.mem_operands (mapping : Mapping) {set : Collection}
    (member : set ∈ mapping.constituents) : .set set ∈ mapping.operands := by
  cases mapping with
  | compose outer inner => exact List.mem_map_of_mem member
  | _ => cases member

def Session.Item.collection : Item → Option Collection
  | .set s => some s
  | _ => none

namespace Run

variable {run : Run} {call : Call} {item : Item}

def Entry.formed (entry : Entry) : List Collection :=
  if entry.call.formsSets then entry.results.filterMap Item.collection else []

/-- The sets formed so far, those of the latest call first. -/
def formed (run : Run) : List Collection :=
  run.history.flatMap Entry.formed

structure Registered (run : Run) : Prop where
  distinct : (run.formed.map Collection.id).Nodup
  counted : ∀ set ∈ run.formed, set.id ≤ run.store.formed
  constituents : ∀ set ∈ run.formed, ∀ part ∈ set.constituents, part ∈ run.formed
  living : ∀ set ∈ run.store.living, set ∈ run.formed
  results : ∀ entry ∈ run.history, ∀ item ∈ entry.results, item.SetsAmong (· ∈ run.formed)

theorem Registered.eq_of_id {s t : Collection} (registered : run.Registered)
    (isFirst : s ∈ run.formed) (isSecond : t ∈ run.formed) (same : s.id = t.id) : s = t :=
  List.inj_on_of_nodup_map registered.distinct isFirst isSecond same

theorem Registered.of_held (registered : run.Registered) (held : run.Holds item) :
    item.SetsAmong (· ∈ run.formed) := by
  induction held with
  | result entryMember member => exact registered.results _ entryMember _ member
  | component _ _ _ => trivial
  | owner _ isOwner _ =>
      obtain ⟨id, _, isFound⟩ := Option.bind_eq_some_iff.mp isOwner
      exact registered.living _ (List.mem_of_find?_eq_some isFound)
  | proposition _ _ _ setsInduction => exact setsInduction
  | objectOf _ _ _ => trivial
  | setOf _ member induction => exact induction _ member
  | conclusion _ induction => exact induction _ .root
  | premise _ member induction => exact fun node isNode => induction node (.above member isNode)
  | generic name parameters => exact Slot.setsAmong_declared parameters
  | membership name => exact Slot.setsAmong_declared _
  | ordering name relation => exact Slot.setsAmong_declared _
  | subset name => exact Slot.setsAmong_declared _
  | combine name connective _ _ leftInduction rightInduction =>
      exact ⟨Slot.setsAmong_declared _, Schema.setsAmong_item.mp leftInduction,
        Schema.setsAmong_item.mp rightInduction⟩
  | quantify name quantifier variableName _ induction =>
      exact ⟨Slot.setsAmong_declared _, Schema.setsAmong_item.mp induction⟩
  | boundValue _ member induction =>
      exact Argument.setsAmong_item.mpr (Schema.SetsAmong.bound induction member)
  | @reducedSchema reduction schema _ isSchema induction =>
      cases reduction with
      | unfinished schema' =>
          cases isSchema
          exact induction
      | _ => cases isSchema
  | @reducedStatement reduction statement _ isStatement induction =>
      cases reduction with
      | unfinished schema => cases isStatement
      | complete statement' =>
          cases isStatement
          exact induction
      | asserted proof =>
          cases isStatement
          exact induction _ .root

theorem formed_after_of_formsNone (formsNone : call.formsSets = false) :
    (run.after call).formed = run.formed := by
  have noneFormed : Entry.formed ⟨call, run.results call⟩ = [] := by
    rw [Entry.formed, formsNone]
    rfl
  rw [formed, after, List.flatMap_cons, noneFormed]
  rfl

/-- Only functions that have been formed get new images. -/
theorem Registered.updates (registered : run.Registered) (formsNone : call.formsSets = false)
    (held : ∀ operand ∈ call.operands, run.Holds operand) :
    run.store.Updates (· ∈ run.formed) call.Gives (run.after call).store := by
  refine Call.updating_perform formsNone registered.constituents ?_ run.store
  rintro function x rfl
  exact registered.of_held (held (.set function) List.mem_cons_self)

/-- A call that forms no sets leaves them as they are. -/
theorem Registered.keep (registered : run.Registered) (formsNone : call.formsSets = false)
    (held : ∀ operand ∈ call.operands, run.Holds operand) : (run.after call).Registered := by
  obtain ⟨sameLiving, sameCount⟩ := (registered.updates formsNone held).sets
  have sameFormed : (run.after call).formed = run.formed := formed_after_of_formsNone formsNone
  refine ⟨?_, ?_, ?_, ?_, ?_⟩
  · rw [sameFormed]
    exact registered.distinct
  · rw [sameFormed]
    exact fun set member => sameCount ▸ registered.counted set member
  · rw [sameFormed]
    exact registered.constituents
  · rw [sameFormed]
    exact fun set member => registered.living set (sameLiving ▸ member)
  · rw [sameFormed]
    intro entry entryMember item member
    rcases List.mem_cons.mp entryMember with rfl | isOld
    · exact setsAmong_results formsNone
        (fun operand isOperand => registered.of_held (held operand isOperand)) member
    · exact registered.results entry isOld item member

theorem formed_after_of_forms {sets : List Collection} (forms : call.formsSets = true)
    (areResults : run.results call = sets.map .set) :
    (run.after call).formed = sets ++ run.formed := by
  have areFormed : Entry.formed ⟨call, run.results call⟩ = sets := by
    rw [Entry.formed, if_pos forms, areResults, List.filterMap_map]
    exact List.filterMap_some
  rw [formed, after, List.flatMap_cons, areFormed]
  rfl

/-- New sets get the next numbers and are formed of known ones. -/
theorem Registered.extend {sets : List Collection} (registered : run.Registered)
    (areResults : run.results call = sets.map .set) (forms : call.formsSets = true)
    (numbered : sets.map Collection.id = List.range' (run.store.formed + 1) sets.length)
    (count : (run.after call).store.formed = run.store.formed + sets.length)
    (living : ∀ set ∈ (run.after call).store.living, set ∈ sets ∨ set ∈ run.store.living)
    (constituents : ∀ set ∈ sets, ∀ part ∈ set.constituents, part ∈ sets ++ run.formed) :
    (run.after call).Registered := by
  have areFormed : (run.after call).formed = sets ++ run.formed :=
    formed_after_of_forms forms areResults
  have inRange : ∀ set ∈ sets, run.store.formed < set.id ∧
      set.id ≤ run.store.formed + sets.length := by
    intro set member
    have isNumber : set.id ∈ sets.map Collection.id := List.mem_map_of_mem member
    rw [numbered, List.mem_range'_1, Nat.add_right_comm] at isNumber
    exact ⟨isNumber.1, Nat.le_of_lt_succ isNumber.2⟩
  have known : ∀ set ∈ run.formed, set ∈ sets ++ run.formed :=
    fun set member => List.mem_append_right _ member
  refine ⟨?_, ?_, ?_, ?_, ?_⟩
  · rw [areFormed, List.map_append, List.nodup_append]
    refine ⟨numbered ▸ List.nodup_range', registered.distinct, ?_⟩
    intro id isNew id' isOld same
    obtain ⟨set, member, rfl⟩ := List.mem_map.mp isNew
    obtain ⟨set', member', rfl⟩ := List.mem_map.mp isOld
    have earlier := registered.counted set' member'
    exact absurd (same ▸ earlier) (Nat.not_le_of_lt (inRange set member).1)
  · rw [areFormed, count]
    intro set member
    rcases List.mem_append.mp member with isNew | isOld
    · exact (inRange set isNew).2
    · exact Nat.le_add_right_of_le (registered.counted set isOld)
  · rw [areFormed]
    intro set member part isPart
    rcases List.mem_append.mp member with isNew | isOld
    · exact constituents set isNew part isPart
    · exact known part (registered.constituents set isOld part isPart)
  · rw [areFormed]
    intro set member
    rcases living set member with isNew | isOld
    · exact List.mem_append_left _ isNew
    · exact known set (registered.living set isOld)
  · rw [areFormed]
    intro entry entryMember item member
    rcases List.mem_cons.mp entryMember with rfl | isOld
    · rw [areResults] at member
      obtain ⟨set, isNew, rfl⟩ := List.mem_map.mp member
      exact List.mem_append_left _ isNew
    · exact (registered.results entry isOld item member).mono known

theorem Registered.after (registered : run.Registered)
    (held : ∀ operand ∈ call.operands, run.Holds operand) : (run.after call).Registered := by
  have known : ∀ set, .set set ∈ call.operands → set ∈ run.formed :=
    fun set member => registered.of_held (held _ member)
  have latest : ∀ {set : Collection}, ∀ other ∈ set :: run.store.living,
      other ∈ [set] ∨ other ∈ run.store.living := by
    intro set other member
    exact (List.mem_cons.mp member).imp_left List.mem_singleton.mpr
  cases forms : call.formsSets with
  | false => exact registered.keep forms held
  | true =>
      cases call with
      | plainSet name =>
          let sets : List Collection := [.plain (run.store.formed + 1) name]
          refine registered.extend (show run.results _ = sets.map .set from rfl) rfl rfl rfl
            latest ?_
          exact List.forall_mem_singleton.mpr fun _ isPart => nomatch isPart
      | productSet name factors =>
          let sets : List Collection := [.product (run.store.formed + 1) name factors]
          refine registered.extend (show run.results _ = sets.map .set from rfl) rfl rfl rfl
            latest ?_
          refine List.forall_mem_singleton.mpr fun part isPart => ?_
          exact List.mem_append_right _ (known part (List.mem_map_of_mem isPart))
      | functionSet name domain range mapping =>
          let sets : List Collection :=
            [.function (run.store.formed + 1) name domain range mapping]
          refine registered.extend (show run.results _ = sets.map .set from rfl) rfl rfl rfl
            latest ?_
          refine List.forall_mem_singleton.mpr fun part isPart => ?_
          refine List.mem_append_right _ (known part ?_)
          simp only [Collection.constituents, List.mem_cons] at isPart
          rcases isPart with rfl | rfl | inMapping
          · exact List.mem_cons_self
          · exact List.mem_cons_of_mem _ List.mem_cons_self
          · exact List.mem_cons_of_mem _ (List.mem_cons_of_mem _ (mapping.mem_operands inMapping))
      | numberSets =>
          let naturals := run.store.formed + 1
          let sets : List Collection := [.number (.naturals naturals),
            .number (.rationals (naturals + 1) naturals),
            .number (.reals (naturals + 2) (naturals + 1) naturals)]
          refine registered.extend (show run.results _ = sets.map .set from rfl) rfl rfl rfl ?_ ?_
          · intro set member
            rcases List.mem_append.mp (show set ∈ sets.reverse ++ run.store.living from member) with
              isNew | isOld
            · exact .inl (List.mem_reverse.mp isNew)
            · exact .inr isOld
          · intro set member part isPart
            refine List.mem_append_left _ ?_
            simp only [sets, List.mem_cons, List.not_mem_nil, or_false] at member
            rcases member with rfl | rfl | rfl
            · cases isPart
            · exact List.mem_of_mem_take (i := 1) isPart
            · exact List.mem_of_mem_take (i := 2) (List.mem_reverse.mp isPart)
      | _ => cases forms

theorem Reachable.registered (reachable : run.Reachable) : run.Registered := by
  induction reachable with
  | start =>
      refine ⟨List.nodup_nil, ?_, ?_, ?_, ?_⟩
      · exact fun _ member => nomatch member
      · exact fun _ member => nomatch member
      · exact fun _ member => nomatch member
      · exact fun _ member => nomatch member
  | after _ held induction => exact induction.after held
  | release isKept _ induction =>
      refine ⟨induction.distinct, induction.counted, induction.constituents, ?_, induction.results⟩
      exact fun set member => induction.living set (List.mem_filter.mp member).1

end Run

end Deduction
