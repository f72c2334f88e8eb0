import Deduction.Proofs.Coherence

/-! # Evaluation

A schema has a proposition in every environment that gives values to its parameters.
Binding the parameters step by step, in any order and in any number of applications,
leads to the proposition in the environment of all bindings. -/

namespace Deduction

/-- Values of parameters by their names. -/
abbrev Environment := String → Option Argument

def Environment.of (bindings : List (String × Argument)) : Environment :=
  fun parameter => bindings.lookup parameter

/-! ## Values of slots -/

namespace Slot

variable {parameter : String} {value : Argument} {environment : Environment}

/-- The value bound in the slot, or else the one of its name. -/
def valueIn (environment : Environment) (slot : Slot) : Option Argument :=
  slot.value.or (environment slot.parameter)

def allValuesIn (environment : Environment) (slots : List Slot) : Option (List Argument) :=
  (slots.map (valueIn environment)).mapM id

/-- The object in the first slot. -/
def variableIn (environment : Environment) (slots : List Slot) : Option Object :=
  match slots.map (valueIn environment) with
  | some (.object x) :: _ => some x
  | _ => none

/-- Filling a slot with the value of its name changes no value. -/
theorem map_valueIn_fill (slots : List Slot) (isValue : environment parameter = some value) :
    (fill parameter value slots).map (valueIn environment) = slots.map (valueIn environment) := by
  induction slots with
  | nil => rfl
  | cons slot slots induction =>
      by_cases fills : slot.parameter = parameter ∧ slot.isFree
      · have free : slot.value = none := Option.isNone_iff_eq_none.mp fills.2
        rw [fill_cons_same slots fills, List.map_cons, List.map_cons]
        simp [valueIn, free, fills.1, isValue]
      · rw [fill_cons_other slots fills, List.map_cons, List.map_cons, induction]

theorem valueIn_of_value {slot : Slot} (isValue : slot.value = some value) :
    slot.valueIn environment = some value := by
  rw [valueIn, isValue]
  rfl

theorem allValuesIn_of_values {slots : List Slot} {values : List Argument}
    (areValues : slots.map Slot.value = values.map some) :
    allValuesIn environment slots = some values := by
  have inEnvironment : slots.map (valueIn environment) = values.map some := by
    rw [← areValues]
    apply List.map_congr_left
    intro slot member
    have isSome : slot.value ∈ values.map some := areValues ▸ List.mem_map_of_mem member
    obtain ⟨value, _, isValue⟩ := List.mem_map.mp isSome
    rw [valueIn_of_value isValue.symm, isValue]
  rw [allValuesIn, inEnvironment, List.mapM_map]
  exact (List.mapM_pure (f := id)).trans (congrArg some (List.map_id values))

end Slot

/-! ## Propositions in an environment -/

namespace Schema

variable {parameter : String} {value : Argument} {schema bound : Schema}
  {environment : Environment}

def evaluate (environment : Environment) : Schema → Option Proposition
  | settled p => some p
  | elementary name slots form =>
      (Slot.allValuesIn environment slots).bind (form.proposition name)
  | binary _ _ left connective right => do
      let l ← left.evaluate environment
      let r ← right.evaluate environment
      return .binary l connective r
  | quantified _ slots quantifier inner => do
      let x ← Slot.variableIn environment slots
      let body ← inner.evaluate environment
      return .quantified quantifier x body

/-- A coherent schema with nothing left to bind has a proposition, which is its
proposition in every environment. -/
theorem Coherent.exists_statement (coherent : schema.Coherent) (closed : schema.arity = 0) :
    ∃ p, schema.statement = .ok p ∧ ∀ environment, schema.evaluate environment = some p := by
  induction schema with
  | settled p => exact ⟨p, rfl, fun _ => rfl⟩
  | elementary name slots form =>
      obtain ⟨values, p, areValues, isProposition⟩ := coherent.exists_values closed
      refine ⟨p, elementaryStatement_eq_ok areValues isProposition, fun environment => ?_⟩
      rw [evaluate, Slot.allValuesIn_of_values areValues]
      exact isProposition
  | binary name slots left connective right leftInduction rightInduction =>
      rcases coherent with ⟨ofLeft, ofRight, _, inStep⟩
      have none : Slot.remaining slots = [] := arity_eq_zero_iff.mp closed
      rw [inStep, merge_eq_nil_iff ofRight.distinct] at none
      have leftClosed := arity_eq_zero_iff.mpr none.1
      have rightClosed := arity_eq_zero_iff.mpr none.2
      obtain ⟨l, isLeft, leftValue⟩ := leftInduction ofLeft leftClosed
      obtain ⟨r, isRight, rightValue⟩ := rightInduction ofRight rightClosed
      refine ⟨.binary l connective r, ?_, fun environment => ?_⟩
      · rw [statement, complete_of_arity_eq_zero leftClosed, isLeft,
          complete_of_arity_eq_zero rightClosed, isRight]
        rfl
      · rw [evaluate, leftValue, rightValue]
        rfl
  | quantified name slots quantifier inner induction =>
      have bound := not_isFree_of_arity_eq_zero closed
      rcases coherent with ⟨ofInner, fits, first, others, rfl, kind, inStep⟩
      have none : Slot.remaining (first :: others) = [] := arity_eq_zero_iff.mp closed
      rw [inStep, merge_eq_nil_iff ofInner.distinct] at none
      have innerClosed := arity_eq_zero_iff.mpr none.2
      obtain ⟨body, isBody, bodyValue⟩ := induction ofInner innerClosed
      obtain ⟨value, isValue, valueKind⟩ :=
        Slot.exists_value (fits first List.mem_cons_self) (bound first List.mem_cons_self)
      obtain ⟨x, rfl⟩ := Argument.exists_object (valueKind.trans kind)
      refine ⟨.quantified quantifier x body, ?_, fun environment => ?_⟩
      · rw [statement, objectAt_eq_ok rfl isValue, complete_of_arity_eq_zero innerClosed, isBody]
        rfl
      · rw [evaluate, Slot.variableIn, List.map_cons, Slot.valueIn_of_value isValue, bodyValue]
        rfl

theorem Coherent.evaluate_of_statement {p : Proposition} (coherent : schema.Coherent)
    (closed : schema.arity = 0) (isStatement : schema.statement = .ok p) :
    schema.evaluate environment = some p := by
  obtain ⟨q, isStatement', isValue⟩ := coherent.exists_statement closed
  cases isStatement.symm.trans isStatement'
  exact isValue environment

theorem Coherent.evaluate_of_partStep (coherent : schema.Coherent)
    (step : PartStep parameter value (fun schema bound => schema.Coherent →
      bound.evaluate environment = schema.evaluate environment) schema bound) :
    bound.evaluate environment = schema.evaluate environment := by
  cases step with
  | untouched _ => rfl
  | unfinished _ _ kept _ => exact kept coherent
  | settled _ isBound kept closed isStatement =>
      rw [← kept coherent, (coherent.bind isBound).evaluate_of_statement closed isStatement]
      rfl

/-- Binding a parameter to its value in the environment does not change the proposition. -/
theorem Coherent.evaluate_of_bind (coherent : schema.Coherent)
    (isValue : environment parameter = some value)
    (ok : schema.bind parameter value = .ok bound) :
    bound.evaluate environment = schema.evaluate environment := by
  refine bind_induction (motive := fun schema bound =>
    schema.Coherent → bound.evaluate environment = schema.evaluate environment) ?_ ?_ ?_ ok coherent
  · intro name slots form _ _
    rw [evaluate, evaluate, Slot.allValuesIn, Slot.allValuesIn, Slot.map_valueIn_fill slots isValue]
  · rintro name slots left left' connective right right' _ leftStep rightStep ⟨ofLeft, ofRight, _⟩
    rw [evaluate, evaluate, ofLeft.evaluate_of_partStep leftStep,
      ofRight.evaluate_of_partStep rightStep]
  · rintro name slots quantifier inner inner' _ step ⟨ofInner, _⟩
    rw [evaluate, evaluate, ofInner.evaluate_of_partStep step, Slot.variableIn, Slot.variableIn,
      Slot.map_valueIn_fill slots isValue]

theorem Coherent.evaluate_of_bindAll {bindings : List (String × Argument)}
    (coherent : schema.Coherent)
    (areValues : ∀ binding ∈ bindings, environment binding.1 = some binding.2)
    (ok : schema.bindAll bindings = .ok bound) :
    bound.evaluate environment = schema.evaluate environment := by
  induction bindings generalizing schema with
  | nil =>
      cases ok
      rfl
  | cons binding bindings induction =>
      obtain ⟨next, isNext, ok⟩ := bindAll_cons_eq_ok_iff.mp ok
      obtain ⟨isValue, areValues⟩ := List.forall_mem_cons.mp areValues
      rw [induction (coherent.bind isNext) areValues ok, coherent.evaluate_of_bind isValue isNext]

end Schema

/-! ## Applications one after another -/

namespace Reduction

variable {reduction reduction' : Reduction} {bindings : List (String × Argument)} {p : Proposition}

/-- Applied to all the bindings, in order, by any number of applications. A schema is
applied like the reduction in which it is unfinished. -/
inductive Applied : Reduction → List (String × Argument) → Reduction → Prop
  | none (reduction : Reduction) : Applied reduction [] reduction
  | call {reduction next last : Reduction} {bindings : Bindings} {assert : Bool} {store : Store}
      {rest : List (String × Argument)} :
      (Kernel.outcome (Kernel.applyReduction reduction bindings assert) store).1 = .ok next →
      Applied next rest last → Applied reduction (bindings.present ++ rest) last

theorem Applied.of_statement (applied : reduction.Applied bindings reduction')
    (isStatement : reduction.statement = some p) : bindings = [] ∧ reduction' = reduction := by
  induction applied with
  | none reduction => exact ⟨rfl, rfl⟩
  | call ok _ induction =>
      obtain ⟨isPresent, rfl⟩ := present_of_applyReduction isStatement ok
      obtain ⟨rfl, rfl⟩ := induction isStatement
      rw [isPresent]
      exact ⟨rfl, rfl⟩

/-- Several applications bind what one binding after another does. -/
theorem Applied.exists_bound {schema : Schema}
    (applied : (Reduction.unfinished schema).Applied bindings reduction) :
    ∃ bound, schema.bindAll bindings = .ok bound ∧
      (reduction = .unfinished bound ∨
        bound.arity = 0 ∧ ∃ p, bound.statement = .ok p ∧ reduction.statement = some p) := by
  generalize isStart : Reduction.unfinished schema = start at applied
  induction applied generalizing schema with
  | none _ => exact ⟨schema, rfl, .inl isStart.symm⟩
  | call ok rest induction =>
      subst isStart
      rw [Kernel.applyReduction, Reduction.schema, Kernel.outcome_applySchema] at ok
      obtain ⟨next, isNext, reduces⟩ := Inference.ok_of_bind ok
      rw [Schema.bindAll_append, isNext]
      rcases Schema.reduced_cases reduces with ⟨_, rfl⟩ | ⟨p, closed, isStatement, rfl⟩
      · exact induction rfl
      · obtain ⟨rfl, rfl⟩ := rest.of_statement (statement_concluded _ _ p)
        exact ⟨next, rfl, .inr ⟨closed, p, isStatement, statement_concluded _ _ p⟩⟩

/-- However its parameters are bound, a schema that has become a proposition has become
the one in the environment of all bindings, in which each parameter was bound once. -/
theorem Applied.statement_eq_evaluate {schema : Schema} (constructed : schema.Constructed)
    (applied : (Reduction.unfinished schema).Applied bindings reduction)
    (isStatement : reduction.statement = some p) :
    (bindings.map Prod.fst).Perm schema.names ∧
      schema.evaluate (.of bindings) = some p := by
  obtain ⟨bound, isBound, rfl | ⟨closed, q, isStatement', isStatement''⟩⟩ := applied.exists_bound
  · cases isStatement
  · cases isStatement.symm.trans isStatement''
    have perm := Schema.names_perm_of_bindAll isBound
    rw [Schema.names, Schema.names, Schema.arity_eq_zero_iff.mp closed, List.map_nil,
      List.append_nil] at perm
    have distinct := perm.nodup_iff.mp constructed.coherent.distinct
    refine ⟨perm.symm, ?_⟩
    rw [← constructed.coherent.evaluate_of_bindAll
      (fun _ member => Schema.lookup_of_mem distinct member) isBound]
    exact (constructed.coherent.bindAll isBound).evaluate_of_statement closed isStatement'

end Reduction

namespace Schema.Sample

def other : Object := ⟨2, "b", none, []⟩

def related : Schema :=
  generic "R" [("x", .object), ("y", .object)]

/-- What is left of the relation after its second parameter is bound. -/
def relatedToElement : Schema :=
  elementary "R" [⟨"x", .object, none⟩, ⟨"y", .object, some (.object element)⟩] .generic

def covered : Schema :=
  combine "covered" relatedToElement .implies (universal "all" (membership "mem"))

theorem constructed_covered : covered.Constructed := by
  have isRelated : related.Constructed := .generic "R" (by decide)
  have isPart : relatedToElement.Constructed := isRelated.applied
    (show (Kernel.outcome (Kernel.applySchema related
      [("x", none), ("y", some (.object element))] false) .empty).1 =
        .ok (.unfinished relatedToElement) from rfl)
  exact .combine "covered" .implies isPart (.quantify "all" .universal "x" (.membership "mem"))

/-- The set is bound first and the object by a second application. -/
theorem applied_covered :
    (Reduction.unfinished covered).Applied [("set_", .set smaller), ("x", .object other)]
      (.complete ((Proposition.atom "R" [.object other, .object element]).implies
        (.quantified .universal other (.member other smaller)))) := by
  have first : (Kernel.outcome (Kernel.applyReduction (.unfinished covered)
      [("set_", some (Argument.set smaller)), ("x", none)] true) .empty).1 = .ok _ := rfl
  refine .call first ?_
  refine .call (show (Kernel.outcome (Kernel.applyReduction _
      [("x", some (.object other))] false) .empty).1 = .ok _ from rfl) (.none _)

end Schema.Sample

theorem Reduction.Applied.statement_eq_evaluate_covered :
    Schema.Sample.covered.evaluate
        (.of [("set_", .set Schema.Sample.smaller), ("x", .object Schema.Sample.other)]) =
      some ((Proposition.atom "R"
          [.object Schema.Sample.other, .object Schema.Sample.element]).implies
        (.quantified .universal Schema.Sample.other
          (.member Schema.Sample.other Schema.Sample.smaller))) :=
  (statement_eq_evaluate Schema.Sample.constructed_covered Schema.Sample.applied_covered rfl).2

end Deduction
