import Deduction.Kernel
import Deduction.Schema.Binding

/-! # Application

Values are bound in the given order; parameters mentioned without a value are
passed over. A schema whose parameters are all bound reduces to a proposition,
which may be asserted at the same time. -/

namespace Deduction

abbrev Bindings := List (String × Option Argument)

/-- The bindings that have a value. -/
def Bindings.present (bindings : Bindings) : List (String × Argument) :=
  bindings.filterMap fun binding => binding.2.map fun value => (binding.1, value)

/-! ## Binding several parameters -/

namespace Schema

def bindAll : List (String × Argument) → Schema → Except Fault Schema
  | [], schema => .ok schema
  | (parameter, value) :: rest, schema => do
      bindAll rest (← schema.bind parameter value)

/-! A binding is reported once its checks have passed, for the schema as a whole
before its parts, up to the part that refuses it. -/

def bindEvents (parameter : String) (value : Argument) : Schema → List Event
  | settled _ => []
  | elementary name slots form =>
      let schema := elementary name slots form
      if (schema.check parameter value).isOk then [.bound schema parameter value] else []
  | binary name slots left connective right =>
      let schema := binary name slots left connective right
      let ofLeft := if left.declares parameter then left.bindEvents parameter value else []
      let ofRight := if right.declares parameter then right.bindEvents parameter value else []
      if (schema.check parameter value).isOk then
        .bound schema parameter value :: ofLeft ++
          if (left.bindPart parameter value).isOk then ofRight else []
      else
        []
  | quantified name slots quantifier inner =>
      let schema := quantified name slots quantifier inner
      let ofInner := if inner.declares parameter then inner.bindEvents parameter value else []
      if (schema.check parameter value).isOk then
        .bound schema parameter value :: ofInner
      else
        []

def bindAllEvents : List (String × Argument) → Schema → List Event
  | [], _ => []
  | (parameter, value) :: rest, schema =>
      schema.bindEvents parameter value ++
        match schema.bind parameter value with
        | .ok schema => bindAllEvents rest schema
        | .error _ => []

end Schema

/-! ## Reductions -/

/-- What a schema has become by an application. -/
inductive Reduction where
  | unfinished (schema : Schema)
  | complete (statement : Proposition)
  | asserted (proof : Proof)

namespace Reduction

def schema : Reduction → Option Schema
  | unfinished schema => some schema
  | complete _ => none
  | asserted _ => none

def statement : Reduction → Option Proposition
  | unfinished _ => none
  | complete statement => some statement
  | asserted proof => some proof.conclusion

/-- The reduction as a part of another schema. -/
def part : Reduction → Schema
  | unfinished schema => schema
  | complete statement => .settled statement
  | asserted proof => .settled proof.conclusion

def text (reduction : Reduction) : String :=
  reduction.part.text

def mentioned : Reduction → List SetId
  | unfinished schema => schema.mentioned
  | complete statement => statement.mentioned
  | asserted proof => proof.mentioned

end Reduction

namespace Kernel

/-- Asserting a universal quantification also asserts its body. -/
def postulate (statement : Proposition) : Kernel Proof := do
  match statement with
  | .quantified .universal _ body =>
      let ofBody ← certify body .postulate []
      certify statement .postulate [ofBody]
  | _ => certify statement .postulate []

def reduce (schema : Schema) (assert : Bool) : Kernel Reduction := do
  let statement ← liftExcept schema.statement
  report (.reduced schema statement)
  if assert then
    return .asserted (← postulate statement)
  else
    return .complete statement

def applySchema (schema : Schema) (bindings : Bindings) (assert : Bool) : Kernel Reduction := do
  reportAll (schema.bindAllEvents bindings.present)
  let schema ← liftExcept (schema.bindAll bindings.present)
  if schema.arity = 0 then
    reduce schema assert
  else
    return .unfinished schema

/-- A reduction to a proposition takes no further values. -/
def applyReduction (reduction : Reduction) (bindings : Bindings) (assert : Bool) :
    Kernel Reduction :=
  match reduction.schema with
  | some schema => applySchema schema bindings assert
  | none =>
      match bindings.present with
      | [] => return reduction
      | (parameter, _) :: _ => throw (.kindMismatch reduction.part parameter .noParameters)

/-- The proof of a proposition asserted by its reduction. -/
def assertedProof : Reduction → Kernel Proof
  | .asserted proof => return proof
  | reduction => throw (.notPostulated reduction.text)

/-- Bind all remaining parameters of a schema. -/
def instantiate (schema : Schema) (bindings : Bindings) : Kernel Proposition := do
  match ← applySchema schema bindings false with
  | .unfinished schema =>
      let parameter := match schema.remaining with
        | [] => "_"
        | (parameter, _) :: _ => parameter
      throw (.kindMismatch schema parameter .parameterUnbound)
  | .complete statement => return statement
  | .asserted proof => return proof.conclusion

/-- Bind all remaining parameters of a schema and assert the proposition. -/
def assume (schema : Schema) (bindings : Bindings) : Kernel Proof := do
  assertedProof (← applySchema schema bindings true)

end Kernel

end Deduction
