import Deduction.Event

/-! # Binding

Binding a parameter of a composite schema binds it in every part that declares
it. The schema itself is not changed: binding yields a new one. -/

namespace Deduction

namespace Schema

/-! ## The proposition of a schema -/

def objectAt (schema : Schema) (index : Nat) : Except Fault Object :=
  match schema.slots[index]? with
  | some ⟨_, _, some (.object x)⟩ => .ok x
  | some slot => .error (.kindMismatch schema slot.parameter .objectExpected)
  | none => .error (.kindMismatch schema "_" .objectExpected)

def setAt (schema : Schema) (index : Nat) : Except Fault Collection :=
  match schema.slots[index]? with
  | some ⟨_, _, some (.set s)⟩ => .ok s
  | some slot => .error (.kindMismatch schema slot.parameter .setExpected)
  | none => .error (.kindMismatch schema "_" .setExpected)

def elementaryStatement (name : String) (slots : List Slot) (form : Form) :
    Except Fault Proposition := do
  let schema := elementary name slots form
  match form with
  | .generic => return .atom name (slots.filterMap Slot.value)
  | .membership => return .member (← schema.objectAt 0) (← schema.setAt 1)
  | .ordering relation => return .ordered (← schema.objectAt 0) relation (← schema.objectAt 1)
  | .subset =>
      let x ← schema.objectAt 0
      let a ← schema.setAt 1
      let b ← schema.setAt 2
      return .quantified .universal x
        (.binary (.member x a) .implies (.member x b))

/-- Refuses a part that still has free parameters. -/
def complete (schema : Schema) : Except Fault Unit :=
  if schema.arity = 0 then .ok () else .error (.kindMismatch schema "_" .partsUnbound)

/-- The proposition of a schema without free parameters. -/
def statement : Schema → Except Fault Proposition
  | settled p => .ok p
  | elementary name slots form => elementaryStatement name slots form
  | binary _ _ left connective right => do
      left.complete
      let l ← left.statement
      right.complete
      let r ← right.statement
      return .binary l connective r
  | quantified name slots quantifier inner => do
      let x ← (quantified name slots quantifier inner).objectAt 0
      inner.complete
      let body ← inner.statement
      return .quantified quantifier x body

/-! ## Binding one parameter -/

/-- Checks that the value can be bound to the parameter. The variable of an
inclusion is bound last. -/
def check (schema : Schema) (parameter : String) (value : Argument) : Except Fault Unit :=
  match schema.freeSlot parameter with
  | none => .error (.kindMismatch schema parameter .notRemaining)
  | some slot =>
      if slot.kind ≠ value.kind then
        .error (.kindMismatch schema parameter (.wrongKind slot.kind value))
      else
        match schema with
        | elementary _ _ .subset =>
            if parameter = "x" ∧ schema.arity ≠ 1 then
              .error (.outOfOrderBinding schema parameter)
            else
              .ok ()
        | _ => .ok ()

/-- Replace a schema without free parameters by its proposition. -/
def settle (schema : Schema) : Except Fault Schema :=
  if schema.arity = 0 then schema.statement.map settled else .ok schema

/-- A part that declares the parameter becomes what binding made of it, settled
if nothing is left to bind. Any other part stays as it is. -/
def refine (part : Schema) (parameter : String) (bound : Except Fault Schema) :
    Except Fault Schema :=
  if part.declares parameter then bound.bind settle else .ok part

def bind (parameter : String) (value : Argument) : Schema → Except Fault Schema
  | settled p => .error (.kindMismatch (settled p) parameter .notRemaining)
  | elementary name slots form => do
      (elementary name slots form).check parameter value
      return elementary name (Slot.fill parameter value slots) form
  | binary name slots left connective right => do
      (binary name slots left connective right).check parameter value
      let left ← left.refine parameter (left.bind parameter value)
      let right ← right.refine parameter (right.bind parameter value)
      return binary name (Slot.fill parameter value slots) left connective right
  | quantified name slots quantifier inner => do
      (quantified name slots quantifier inner).check parameter value
      let inner ← inner.refine parameter (inner.bind parameter value)
      return quantified name (Slot.fill parameter value slots) quantifier inner

/-- Bind a parameter in a part of a composite. -/
def bindPart (parameter : String) (value : Argument) (part : Schema) : Except Fault Schema :=
  part.refine parameter (part.bind parameter value)

end Schema

end Deduction
