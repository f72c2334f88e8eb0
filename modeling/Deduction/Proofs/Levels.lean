import Deduction.Proofs.BindingOrder
import Mathlib.Logic.Function.Basic

/-! # Levels of a schema

A composite keeps a list of parameters next to those of its parts, and each binding fills
slots at several levels. All the same the levels stay in step: after any bindings, the schema
is the one in which all values were put in at once and each part that took in a value and
became complete was replaced by its proposition. -/

namespace Deduction

/-! ## Values put in at once -/

namespace Slot

variable {parameter : String} {value : Argument} {environment other : Environment}

/-- The slot with its value in the environment, if it has one. -/
def assign (environment : Environment) (slot : Slot) : Slot :=
  { slot with value := slot.valueIn environment }

theorem valueIn_congr {slot : Slot}
    (agree : slot.isFree = true → environment slot.parameter = other slot.parameter) :
    slot.valueIn environment = slot.valueIn other := by
  cases isValue : slot.value with
  | none =>
      have isFree : slot.isFree = true := Option.isNone_iff_eq_none.mpr isValue
      rw [valueIn, valueIn, agree isFree]
  | some value => rw [valueIn_of_value isValue, valueIn_of_value isValue]

theorem assign_congr {slot : Slot}
    (agree : slot.isFree = true → environment slot.parameter = other slot.parameter) :
    slot.assign environment = slot.assign other := by
  rw [assign, assign, valueIn_congr agree]

theorem assign_eq_self {slot : Slot}
    (isNone : slot.isFree = true → environment slot.parameter = none) :
    slot.assign environment = slot := by
  have unchanged : slot.valueIn environment = slot.valueIn fun _ => none := valueIn_congr isNone
  rw [assign, unchanged, valueIn, Option.or_none]

theorem mem_names_of_isFree {slots : List Slot} {slot : Slot} (member : slot ∈ slots)
    (isFree : slot.isFree = true) : slot.parameter ∈ (remaining slots).map Prod.fst :=
  List.mem_map_of_mem (List.mem_map_of_mem (List.mem_filter.mpr ⟨member, isFree⟩))

theorem exists_slot_of_mem_names {slots : List Slot} {name : String}
    (member : name ∈ (remaining slots).map Prod.fst) :
    ∃ slot ∈ slots, slot.isFree = true ∧ slot.parameter = name := by
  obtain ⟨entry, inRemaining, rfl⟩ := List.mem_map.mp member
  obtain ⟨slot, isFree, rfl⟩ := List.mem_map.mp inRemaining
  exact ⟨slot, (List.mem_filter.mp isFree).1, (List.mem_filter.mp isFree).2, rfl⟩

/-- Free slots have no value of their own. -/
theorem valueIn_of_isFree {slot : Slot} (isFree : slot.isFree = true) :
    slot.valueIn environment = environment slot.parameter := by
  rw [valueIn, Option.isNone_iff_eq_none.mp isFree, Option.none_or]

theorem map_valueIn_of_allValuesIn {slots : List Slot} {values : List Argument}
    (areValues : allValuesIn environment slots = some values) :
    slots.map (valueIn environment) = values.map some := by
  rw [allValuesIn] at areValues
  generalize slots.map (valueIn environment) = found at areValues ⊢
  induction found generalizing values with
  | nil =>
      cases areValues
      rfl
  | cons first found induction =>
      rw [List.mapM_cons] at areValues
      obtain ⟨value, isFirst, areValues⟩ := Option.bind_eq_some_iff.mp areValues
      obtain ⟨others, areOthers, isWhole⟩ := Option.bind_eq_some_iff.mp areValues
      cases isWhole
      rw [List.map_cons, induction areOthers]
      exact congrArg (· :: others.map some) isFirst

/-- Filling the slot of a parameter comes to the same as giving the parameter its value in
the environment. -/
theorem map_assign_fill {slots : List Slot} (distinct : ((remaining slots).map Prod.fst).Nodup) :
    (fill parameter value slots).map (assign environment) =
      slots.map (assign (Function.update environment parameter (some value))) := by
  have others {slot : Slot} (different : slot.isFree = true → slot.parameter ≠ parameter) :
      slot.assign environment =
        slot.assign (Function.update environment parameter (some value)) :=
    assign_congr fun isFree => (Function.update_of_ne (different isFree) _ _).symm
  induction slots with
  | nil => rfl
  | cons slot slots induction =>
      by_cases fills : slot.parameter = parameter ∧ slot.isFree
      · rw [remaining_cons, if_pos fills.2] at distinct
        have isFirst : parameter ∉ (remaining slots).map Prod.fst :=
          fills.1 ▸ (List.nodup_cons.mp distinct).1
        have isNone : slot.value = none := Option.isNone_iff_eq_none.mp fills.2
        rw [fill_cons_same slots fills, List.map_cons, List.map_cons]
        congr 1
        · simp [assign, valueIn, isNone, fills.1]
        · refine List.map_congr_left fun later member => others fun isFree same => ?_
          exact isFirst (same ▸ mem_names_of_isFree member isFree)
      · have restDistinct : ((remaining slots).map Prod.fst).Nodup := by
          refine distinct.sublist (List.Sublist.map _ ?_)
          rw [remaining_cons]
          split
          · exact List.sublist_cons_self _ _
          · exact List.Sublist.refl _
        rw [fill_cons_other slots fills, List.map_cons, List.map_cons, induction restDistinct,
          others fun isFree same => fills ⟨same, isFree⟩]

end Slot

namespace Schema

variable {parameter : String} {value : Argument} {schema bound part : Schema}
  {environment other : Environment}

/-- Some free parameter has a value in the environment. -/
def isReached (environment : Environment) (schema : Schema) : Bool :=
  schema.names.any fun name => (environment name).isSome

/-- What becomes of a part, given what it is with the values put in. A part that is not
reached stays as it is, and one that is complete becomes its proposition. -/
def assignPart (environment : Environment) (part assigned : Schema) : Schema :=
  if part.isReached environment then
    match part.evaluate environment with
    | some p => settled p
    | none => assigned
  else
    part

/-- The schema with the values of the environment put in at all levels. -/
def assign (environment : Environment) : Schema → Schema
  | settled p => settled p
  | elementary name slots form => elementary name (slots.map (Slot.assign environment)) form
  | binary name slots left connective right =>
      binary name (slots.map (Slot.assign environment))
        (left.assignPart environment (left.assign environment)) connective
        (right.assignPart environment (right.assign environment))
  | quantified name slots quantifier inner =>
      quantified name (slots.map (Slot.assign environment)) quantifier
        (inner.assignPart environment (inner.assign environment))

/-! ## What an environment matters for

Only the values of free parameters matter. -/

theorem isReached_iff :
    schema.isReached environment = true ↔ ∃ name ∈ schema.names, environment name ≠ none := by
  simp [isReached, Option.isSome_iff_ne_none]

theorem not_isReached_iff :
    schema.isReached environment = false ↔ ∀ name ∈ schema.names, environment name = none := by
  simp [isReached]

theorem isReached_congr (agree : ∀ name ∈ schema.names, environment name = other name) :
    schema.isReached environment = schema.isReached other := by
  rw [Bool.eq_iff_iff, isReached_iff, isReached_iff]
  exact exists_congr fun name => and_congr_right fun member => by rw [agree name member]

theorem assignPart_of_not_isReached (notReached : part.isReached environment = false)
    (assigned : Schema) : part.assignPart environment assigned = part := by
  rw [assignPart, notReached]
  rfl

theorem assignPart_of_evaluate {p : Proposition} (isReached : part.isReached environment = true)
    (isValue : part.evaluate environment = some p) (assigned : Schema) :
    part.assignPart environment assigned = settled p := by
  rw [assignPart, if_pos isReached, isValue]

theorem assignPart_of_incomplete (isReached : part.isReached environment = true)
    (isNone : part.evaluate environment = none) (assigned : Schema) :
    part.assignPart environment assigned = assigned := by
  rw [assignPart, if_pos isReached, isNone]

theorem left_mem_parts (name : String) (slots : List Slot) (left : Schema) (connective : Connective)
    (right : Schema) : left ∈ (binary name slots left connective right).parts :=
  List.mem_cons_of_mem _ (List.mem_append_left _ left.self_mem_parts)

theorem right_mem_parts (name : String) (slots : List Slot) (left : Schema)
    (connective : Connective) (right : Schema) :
    right ∈ (binary name slots left connective right).parts :=
  List.mem_cons_of_mem _ (List.mem_append_right _ right.self_mem_parts)

theorem inner_mem_parts (name : String) (slots : List Slot) (quantifier : Quantifier)
    (inner : Schema) : inner ∈ (quantified name slots quantifier inner).parts :=
  List.mem_cons_of_mem _ inner.self_mem_parts

/-- Environments that agree on the parameters of a schema agree on those of its parts. -/
theorem Coherent.agree_on_part (coherent : schema.Coherent) (isPart : part ∈ schema.parts)
    (agree : ∀ name ∈ schema.names, environment name = other name) :
    ∀ name ∈ part.names, environment name = other name :=
  fun name member => agree name ((coherent.of_mem_parts isPart).2 member)

theorem agree_on_slot (agree : ∀ name ∈ schema.names, environment name = other name) {slot : Slot}
    (member : slot ∈ schema.slots) (isFree : slot.isFree = true) :
    environment slot.parameter = other slot.parameter :=
  agree _ (Slot.mem_names_of_isFree member isFree)

theorem map_valueIn_congr (agree : ∀ name ∈ schema.names, environment name = other name) :
    schema.slots.map (Slot.valueIn environment) = schema.slots.map (Slot.valueIn other) :=
  List.map_congr_left fun _ member => Slot.valueIn_congr (agree_on_slot agree member)

theorem map_assign_congr (agree : ∀ name ∈ schema.names, environment name = other name) :
    schema.slots.map (Slot.assign environment) = schema.slots.map (Slot.assign other) :=
  List.map_congr_left fun _ member => Slot.assign_congr (agree_on_slot agree member)

theorem Coherent.evaluate_congr (coherent : schema.Coherent)
    (agree : ∀ name ∈ schema.names, environment name = other name) :
    schema.evaluate environment = schema.evaluate other := by
  induction schema with
  | settled p => rfl
  | elementary name slots form =>
      have values : slots.map _ = slots.map _ := map_valueIn_congr agree
      rw [evaluate, evaluate, Slot.allValuesIn, Slot.allValuesIn, values]
  | binary name slots left connective right leftInduction rightInduction =>
      rw [evaluate, evaluate,
        leftInduction coherent.1 (coherent.agree_on_part (left_mem_parts ..) agree),
        rightInduction coherent.2.1 (coherent.agree_on_part (right_mem_parts ..) agree)]
  | quantified name slots quantifier inner induction =>
      have values : slots.map _ = slots.map _ := map_valueIn_congr agree
      rw [evaluate, evaluate, Slot.variableIn, Slot.variableIn, values,
        induction coherent.1 (coherent.agree_on_part (inner_mem_parts ..) agree)]

theorem Coherent.assignPart_congr (coherent : part.Coherent) {assigned assigned' : Schema}
    (agree : ∀ name ∈ part.names, environment name = other name) (same : assigned = assigned') :
    part.assignPart environment assigned = part.assignPart other assigned' := by
  rw [assignPart, assignPart, isReached_congr agree, coherent.evaluate_congr agree, same]

theorem Coherent.assign_congr (coherent : schema.Coherent)
    (agree : ∀ name ∈ schema.names, environment name = other name) :
    schema.assign environment = schema.assign other := by
  induction schema with
  | settled p => rfl
  | elementary name slots form =>
      have values : slots.map _ = slots.map _ := map_assign_congr agree
      rw [assign, assign, values]
  | binary name slots left connective right leftInduction rightInduction =>
      have values : slots.map _ = slots.map _ := map_assign_congr agree
      have onLeft := coherent.agree_on_part (left_mem_parts ..) agree
      have onRight := coherent.agree_on_part (right_mem_parts ..) agree
      rw [assign, assign, values,
        coherent.1.assignPart_congr onLeft (leftInduction coherent.1 onLeft),
        coherent.2.1.assignPart_congr onRight (rightInduction coherent.2.1 onRight)]
  | quantified name slots quantifier inner induction =>
      have values : slots.map _ = slots.map _ := map_assign_congr agree
      have onInner := coherent.agree_on_part (inner_mem_parts ..) agree
      rw [assign, assign, values,
        coherent.1.assignPart_congr onInner (induction coherent.1 onInner)]

theorem Coherent.assign_eq_self (coherent : schema.Coherent)
    (notReached : schema.isReached environment = false) : schema.assign environment = schema := by
  have isNone := not_isReached_iff.mp notReached
  have unchanged : schema.slots.map (Slot.assign environment) = schema.slots := by
    refine (List.map_congr_left fun slot member => ?_).trans (List.map_id _)
    exact Slot.assign_eq_self fun isFree => isNone _ (Slot.mem_names_of_isFree member isFree)
  have ofPart {part : Schema} (isPart : part ∈ schema.parts) (assigned : Schema) :
      part.assignPart environment assigned = part := by
    refine assignPart_of_not_isReached (not_isReached_iff.mpr fun name member => ?_) assigned
    exact isNone name ((coherent.of_mem_parts isPart).2 member)
  cases schema with
  | settled p => rfl
  | elementary name slots form => exact congrArg (elementary name · form) unchanged
  | binary name slots left connective right =>
      rw [assign, ofPart (left_mem_parts ..), ofPart (right_mem_parts ..)]
      exact congrArg (binary name · left connective right) unchanged
  | quantified name slots quantifier inner =>
      rw [assign, ofPart (inner_mem_parts ..)]
      exact congrArg (quantified name · quantifier inner) unchanged

/-- Only an environment that has a value for each free parameter makes a proposition of a
schema. -/
theorem Coherent.ne_none_of_evaluate (coherent : schema.Coherent) {p : Proposition}
    (isValue : schema.evaluate environment = some p) :
    ∀ name ∈ schema.names, environment name ≠ none := by
  induction schema generalizing p with
  | settled q => exact fun name member => nomatch member
  | elementary name slots form =>
      obtain ⟨values, areValues, _⟩ := Option.bind_eq_some_iff.mp isValue
      intro parameter member
      obtain ⟨slot, isSlot, isFree, rfl⟩ := Slot.exists_slot_of_mem_names member
      have inValues : slot.valueIn environment ∈ values.map some :=
        Slot.map_valueIn_of_allValuesIn areValues ▸ List.mem_map_of_mem isSlot
      obtain ⟨value, _, isValue⟩ := List.mem_map.mp inValues
      have inEnvironment := isValue.trans (Slot.valueIn_of_isFree isFree)
      exact inEnvironment ▸ Option.some_ne_none value
  | binary name slots left connective right leftInduction rightInduction =>
      rcases coherent with ⟨ofLeft, ofRight, _, inStep⟩
      obtain ⟨l, isLeft, isValue⟩ := Option.bind_eq_some_iff.mp isValue
      obtain ⟨r, isRight, _⟩ := Option.bind_eq_some_iff.mp isValue
      intro parameter (member : parameter ∈ (Slot.remaining slots).map Prod.fst)
      rw [inStep, mem_names_merge ofRight.distinct] at member
      rcases member with inLeft | inRight
      · exact leftInduction ofLeft isLeft parameter inLeft
      · exact rightInduction ofRight isRight parameter inRight
  | quantified name slots quantifier inner induction =>
      rcases coherent with ⟨ofInner, _, first, others, rfl, _, inStep⟩
      obtain ⟨x, isVariable, isValue⟩ := Option.bind_eq_some_iff.mp isValue
      obtain ⟨body, isBody, _⟩ := Option.bind_eq_some_iff.mp isValue
      intro parameter (member : parameter ∈ (Slot.remaining (first :: others)).map Prod.fst)
      rw [inStep, mem_names_merge ofInner.distinct] at member
      rcases member with isFirst | inInner
      · obtain ⟨slot, isSlot, isFree, rfl⟩ := Slot.exists_slot_of_mem_names isFirst
        cases List.mem_singleton.mp isSlot
        intro isNone
        rw [Slot.variableIn, List.map_cons, Slot.valueIn_of_isFree isFree, isNone] at isVariable
        cases isVariable
      · exact induction ofInner isBody parameter inInner

theorem Coherent.evaluate_eq_none (coherent : schema.Coherent)
    (notReached : schema.isReached environment = false) (left : schema.arity ≠ 0) :
    schema.evaluate environment = none := by
  refine Option.eq_none_iff_forall_ne_some.mpr fun p isValue => left ?_
  have noNames : schema.names = [] := List.eq_nil_iff_forall_not_mem.mpr fun name member =>
    coherent.ne_none_of_evaluate isValue name member (not_isReached_iff.mp notReached name member)
  rw [← length_names, noNames, List.length_nil]

/-! ## One binding after another -/

/-- What is bound need not be in the environment any more. -/
theorem Coherent.agree_of_bind (coherent : schema.Coherent)
    (ok : schema.bind parameter value = .ok bound) :
    ∀ name ∈ bound.names,
      environment name = Function.update environment parameter (some value) name :=
  fun _ member =>
    (Function.update_of_ne ((coherent.mem_names_of_bind ok).mp member).2 _ _).symm

theorem Coherent.evaluate_update_of_bind (coherent : schema.Coherent) (environment : Environment)
    (ok : schema.bind parameter value = .ok bound) :
    bound.evaluate environment =
      schema.evaluate (Function.update environment parameter (some value)) := by
  rw [← coherent.evaluate_of_bind (Function.update_self ..) ok]
  exact (coherent.bind ok).evaluate_congr (coherent.agree_of_bind ok)

theorem Coherent.assignPart_of_partStep (coherent : schema.Coherent)
    (step : PartStep parameter value (fun schema bound => schema.Coherent →
      bound.assign environment =
        schema.assign (Function.update environment parameter (some value))) schema part) :
    part.assignPart environment (part.assign environment) =
      schema.assignPart (Function.update environment parameter (some value))
        (schema.assign (Function.update environment parameter (some value))) := by
  have reached (declares : schema.declares parameter = true) :
      schema.isReached (Function.update environment parameter (some value)) = true := by
    refine isReached_iff.mpr ⟨parameter, declares_iff_mem_names.mp declares, ?_⟩
    rw [Function.update_self]
    exact Option.some_ne_none value
  cases step with
  | untouched silent =>
      have agree : ∀ name ∈ schema.names, environment name =
          Function.update environment parameter (some value) name := by
        intro name member
        refine (Function.update_of_ne ?_ _ _).symm
        rintro rfl
        rw [declares_iff_mem_names.mpr member] at silent
        cases silent
      exact coherent.assignPart_congr agree (coherent.assign_congr agree)
  | unfinished declares isBound kept left =>
      have ofPart := coherent.bind isBound
      have isValue := coherent.evaluate_update_of_bind environment isBound
      cases isReached : part.isReached environment with
      | true =>
          rw [assignPart, assignPart, if_pos isReached, if_pos (reached declares), isValue,
            kept coherent]
      | false =>
          -- A part that is left with parameters and gets none of them is not complete.
          have incomplete := ofPart.evaluate_eq_none isReached left
          rw [assignPart_of_not_isReached isReached,
            assignPart_of_incomplete (reached declares) (isValue ▸ incomplete), ← kept coherent,
            ofPart.assign_eq_self isReached]
  | @settled whole p declares isBound _ closed isStatement =>
      have isValue : schema.evaluate (Function.update environment parameter (some value)) =
          some p := by
        rw [← coherent.evaluate_update_of_bind environment isBound]
        exact (coherent.bind isBound).evaluate_of_statement closed isStatement
      rw [assignPart_of_not_isReached rfl, assignPart_of_evaluate (reached declares) isValue]

theorem Coherent.assign_of_bind (coherent : schema.Coherent) (environment : Environment)
    (ok : schema.bind parameter value = .ok bound) :
    bound.assign environment =
      schema.assign (Function.update environment parameter (some value)) := by
  refine bind_induction (motive := fun schema bound => schema.Coherent →
    bound.assign environment =
      schema.assign (Function.update environment parameter (some value))) ?_ ?_ ?_ ok coherent
  · intro name slots form _ coherent
    have filled : (Slot.fill parameter value slots).map (Slot.assign environment) = _ :=
      Slot.map_assign_fill coherent.distinct
    rw [assign, assign, filled]
  · intro name slots left left' connective right right' _ leftStep rightStep coherent
    have filled : (Slot.fill parameter value slots).map (Slot.assign environment) = _ :=
      Slot.map_assign_fill coherent.distinct
    rw [assign, assign, filled, coherent.1.assignPart_of_partStep leftStep,
      coherent.2.1.assignPart_of_partStep rightStep]
  · intro name slots quantifier inner inner' _ step coherent
    have filled : (Slot.fill parameter value slots).map (Slot.assign environment) = _ :=
      Slot.map_assign_fill coherent.distinct
    rw [assign, assign, filled, coherent.1.assignPart_of_partStep step]

/-- Bindings that are accepted one after another put in their values at once. -/
theorem Coherent.eq_assign_of_bindAll {bindings : List (String × Argument)}
    (coherent : schema.Coherent) (ok : schema.bindAll bindings = .ok bound) :
    bound = schema.assign (.of bindings) := by
  induction bindings generalizing schema with
  | nil =>
      cases ok
      exact (coherent.assign_eq_self (not_isReached_iff.mpr fun _ _ => rfl)).symm
  | cons binding bindings induction =>
      rcases binding with ⟨parameter, value⟩
      obtain ⟨next, isNext, ok⟩ := bindAll_cons_eq_ok_iff.mp ok
      rw [induction (coherent.bind isNext) ok, coherent.assign_of_bind _ isNext]
      congr 1
      funext name
      by_cases same : name = parameter
      · rw [same, Function.update_self, Environment.of, List.lookup_cons_self]
      · rw [Function.update_of_ne same, Environment.of, Environment.of, List.lookup_cons,
          beq_eq_false_iff_ne.mpr same]

/-! ## Levels in step -/

/-- The schema can serve as a part whose proposition is asked for. -/
def IsClosable (schema : Schema) : Prop :=
  schema.complete = .ok () ∧ ∃ p, schema.statement = .ok p

/-- What one level declares, in terms of the values bound at it and of the parts below it. -/
structure InStep (schema : Schema) : Prop where
  distinct : schema.names.Nodup
  fits : ∀ slot ∈ schema.slots, slot.Fits
  closable : schema.arity = 0 ↔ schema.IsClosable
  binary {name : String} {slots : List Slot} {left right : Schema} {connective : Connective} :
    schema = binary name slots left connective right →
      schema.remaining =
        left.remaining ++ right.remaining.filter (fun entry => entry.1 ∉ left.names) ∧
      (schema.arity = 0 ↔ left.IsClosable ∧ right.IsClosable)
  quantified {name : String} {slots : List Slot} {quantifier : Quantifier} {inner : Schema} :
    schema = quantified name slots quantifier inner →
      ∃ first others, slots = first :: others ∧ first.kind = .object ∧
        schema.remaining = Slot.remaining [first] ++ inner.remaining.filter
          (fun entry => entry.1 ∉ (Slot.remaining [first]).map Prod.fst) ∧
        (schema.arity = 0 ↔ first.isFree = false ∧ inner.IsClosable)

theorem Coherent.fits (coherent : schema.Coherent) : ∀ slot ∈ schema.slots, slot.Fits := by
  cases schema with
  | settled p => exact fun slot member => nomatch member
  | elementary name slots form => exact coherent.1
  | binary name slots left connective right => exact coherent.2.2.1
  | quantified name slots quantifier inner => exact coherent.2.1

theorem Coherent.isClosable_iff (coherent : schema.Coherent) :
    schema.IsClosable ↔ schema.remaining = [] := by
  rw [← arity_eq_zero_iff]
  constructor
  · rintro ⟨isComplete, _⟩
    by_contra left
    rw [complete, if_neg left] at isComplete
    cases isComplete
  · intro closed
    obtain ⟨p, isStatement, _⟩ := coherent.exists_statement closed
    exact ⟨complete_of_arity_eq_zero closed, p, isStatement⟩

theorem Coherent.inStep (coherent : schema.Coherent) : schema.InStep where
  distinct := coherent.distinct
  fits := coherent.fits
  closable := by rw [coherent.isClosable_iff, arity_eq_zero_iff]
  binary {name slots left right connective} := by
    rintro rfl
    rcases coherent with ⟨ofLeft, ofRight, _, inStep⟩
    refine ⟨inStep.trans (merge_eq_append ofRight.distinct), ?_⟩
    rw [arity_eq_zero_iff, ofLeft.isClosable_iff, ofRight.isClosable_iff,
      ← merge_eq_nil_iff ofRight.distinct, ← inStep]
    rfl
  quantified {name slots quantifier inner} := by
    rintro rfl
    rcases coherent with ⟨ofInner, _, first, others, rfl, kind, inStep⟩
    have isBound : Slot.remaining [first] = [] ↔ first.isFree = false := by
      rw [Slot.remaining_cons]
      cases first.isFree <;> simp
    refine ⟨first, others, rfl, kind, inStep.trans (merge_eq_append ofInner.distinct), ?_⟩
    rw [arity_eq_zero_iff, ofInner.isClosable_iff, ← isBound, ← merge_eq_nil_iff ofInner.distinct,
      ← inStep]
    rfl

/-! ## Complete parts

A part that took in a value is a schema only as long as some parameter is left. This does not
hold of the whole: it is for the application to reduce it. -/

/-- The schema took in no value or has a parameter left. -/
def IsPending (schema : Schema) : Prop :=
  schema.bound ≠ [] → schema.arity ≠ 0

/-- All levels below the top are pending. -/
def PartsPending (schema : Schema) : Prop :=
  ∀ part ∈ schema.parts.tail, part.IsPending

theorem isPending_of_bound_eq_nil (noneBound : schema.bound = []) : schema.IsPending :=
  fun isBound => absurd noneBound isBound

theorem parts_eq_cons (schema : Schema) : schema.parts = schema :: schema.parts.tail := by
  cases schema <;> rfl

theorem forall_mem_parts_iff {holds : Schema → Prop} :
    (∀ part ∈ schema.parts, holds part) ↔ holds schema ∧ ∀ part ∈ schema.parts.tail, holds part := by
  rw [parts_eq_cons, List.forall_mem_cons]
  rfl

theorem PartsPending.of_partStep (pending : ∀ other ∈ schema.parts, other.IsPending)
    (step : PartStep parameter value (fun schema bound => schema.PartsPending → bound.PartsPending)
      schema part) : ∀ other ∈ part.parts, other.IsPending := by
  cases step with
  | untouched _ => exact pending
  | unfinished _ _ kept left =>
      exact forall_mem_parts_iff.mpr ⟨fun _ => left, kept (forall_mem_parts_iff.mp pending).2⟩
  | settled _ _ _ _ _ => exact List.forall_mem_singleton.mpr (isPending_of_bound_eq_nil rfl)

theorem PartsPending.bind (pending : schema.PartsPending)
    (ok : schema.bind parameter value = .ok bound) : bound.PartsPending := by
  refine bind_induction (motive := fun schema bound => schema.PartsPending → bound.PartsPending)
    ?_ ?_ ?_ ok pending
  · exact fun _ _ part member => nomatch member
  · intro name slots left left' connective right right' _ leftStep rightStep pending
    obtain ⟨ofLeft, ofRight⟩ := List.forall_mem_append.mp pending
    exact List.forall_mem_append.mpr
      ⟨PartsPending.of_partStep ofLeft leftStep, PartsPending.of_partStep ofRight rightStep⟩
  · intro name slots quantifier inner inner' _ step pending
    exact PartsPending.of_partStep pending step

theorem PartsPending.bindAll {bindings : List (String × Argument)} (pending : schema.PartsPending)
    (ok : schema.bindAll bindings = .ok bound) : bound.PartsPending := by
  induction bindings generalizing schema with
  | nil =>
      cases ok
      exact pending
  | cons binding bindings induction =>
      obtain ⟨next, isNext, ok⟩ := bindAll_cons_eq_ok_iff.mp ok
      exact induction (pending.bind isNext) ok

theorem bound_declared (parameters : List (String × ArgumentKind)) :
    ((parameters.map Slot.declare).filterMap fun slot =>
      slot.value.map fun value => (slot.parameter, value)) = [] := by
  rw [List.filterMap_map]
  exact List.filterMap_eq_nil_iff.mpr fun _ _ => rfl

theorem Constructed.pending (constructed : schema.Constructed) :
    ∀ part ∈ schema.parts, part.IsPending := by
  rw [forall_mem_parts_iff]
  induction constructed with
  | settled p => exact ⟨isPending_of_bound_eq_nil rfl, fun _ member => nomatch member⟩
  | combine name connective _ _ ofLeft ofRight =>
      exact ⟨isPending_of_bound_eq_nil (bound_declared _), List.forall_mem_append.mpr
        ⟨forall_mem_parts_iff.mpr ofLeft, forall_mem_parts_iff.mpr ofRight⟩⟩
  | quantify name quantifier variableName _ ofInner =>
      exact ⟨isPending_of_bound_eq_nil (bound_declared _), forall_mem_parts_iff.mpr ofInner⟩
  | @applied schema bindings assert store reduction _ ok ofSchema =>
      rw [Kernel.outcome_applySchema] at ok
      obtain ⟨bound, isBound, ok⟩ := Inference.ok_of_bind ok
      rcases reduced_cases ok with ⟨left, rfl⟩ | ⟨p, _, _, rfl⟩
      · exact ⟨fun _ => left, PartsPending.bindAll ofSchema.2 isBound⟩
      · cases assert with
        | false => exact ⟨isPending_of_bound_eq_nil rfl, fun _ member => nomatch member⟩
        | true => exact ⟨isPending_of_bound_eq_nil rfl, fun _ member => nomatch member⟩
  | _ => exact ⟨isPending_of_bound_eq_nil (bound_declared _), fun _ member => nomatch member⟩

/-- Whatever bindings were accepted, at every level the names are distinct, the values are of
the declared kinds, and a composite declares what is left of its parts; it has nothing left if
and only if all its parts have a proposition. A part that was reached and has nothing left is
settled to its proposition, so that the schema is the one with all values put in at once. -/
theorem Constructed.levels_in_step {bindings : List (String × Argument)}
    (constructed : schema.Constructed) (ok : schema.bindAll bindings = .ok bound) :
    (∀ part ∈ bound.parts, part.InStep) ∧ (∀ part ∈ bound.parts.tail, part.IsPending) ∧
      bound = schema.assign (.of bindings) := by
  have coherent := constructed.coherent
  have pending : schema.PartsPending := (forall_mem_parts_iff.mp constructed.pending).2
  refine ⟨fun part isPart => ?_, pending.bindAll ok, coherent.eq_assign_of_bindAll ok⟩
  exact ((coherent.bindAll ok).of_mem_parts isPart).1.inStep

end Schema

/-! In the sample a part is settled while the other one, which is quantified, waits for its
variable and for a set. -/

namespace Schema.Sample

def ordered : Schema :=
  combine "ordered" (nullary "P") .or (ordering "less" .less)

def staged : Schema :=
  combine "staged" ordered .and (quantify "some" .existential "z" (membership "mem"))

/-- What is left when `y` and `x` are bound. -/
def halfway : Schema :=
  binary "staged" [⟨"x", .object, some (.object element)⟩, ⟨"y", .object, some (.object other)⟩,
      ⟨"z", .object, none⟩, ⟨"set_", .set, none⟩]
    (settled ((Proposition.atom "P" []).or (.ordered element .less other))) .and
    (quantified "some"
      [⟨"z", .object, none⟩, ⟨"x", .object, some (.object element)⟩, ⟨"set_", .set, none⟩]
      .existential
      (elementary "mem" [⟨"x", .object, some (.object element)⟩, ⟨"set_", .set, none⟩] .membership))

theorem constructed_staged : staged.Constructed :=
  .combine "staged" .and
    (.combine "ordered" .or (.generic "P" List.nodup_nil) (.ordering "less" .less))
    (.quantify "some" .existential "z" (.membership "mem"))

end Schema.Sample

open Schema.Sample in
theorem Schema.Constructed.levels_in_step_staged :
    staged.bindAll [("y", .object other), ("x", .object element)] = .ok halfway ∧
      (∀ part ∈ halfway.parts, part.InStep) ∧
      staged.assign (.of [("y", .object other), ("x", .object element)]) = halfway := by
  have ok : staged.bindAll [("y", .object other), ("x", .object element)] = .ok halfway := rfl
  obtain ⟨inStep, _, isAssigned⟩ := constructed_staged.levels_in_step ok
  exact ⟨ok, inStep, isAssigned.symm⟩

end Deduction
