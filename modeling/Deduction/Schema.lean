import Deduction.Proposition

/-! # Schemas

A schema is a proposition with parameters. Its parameters are bound to values
one at a time; a part of a composite schema whose parameters are all bound is
settled to the proposition it has become. -/

namespace Deduction

/-! ## Slots -/

/-- A declared parameter with the value bound to it, if any. -/
structure Slot where
  parameter : String
  kind : ArgumentKind
  value : Option Argument

namespace Slot

def isFree (slot : Slot) : Bool :=
  slot.value.isNone

def shown (slot : Slot) : String :=
  match slot.value with
  | some value => value.text
  | none => "_"

def declare (parameter : String × ArgumentKind) : Slot where
  parameter := parameter.1
  kind := parameter.2
  value := none

/-- Bind the first free slot of the given parameter. -/
def fill (parameter : String) (value : Argument) : List Slot → List Slot
  | [] => []
  | slot :: rest =>
      if slot.parameter = parameter ∧ slot.isFree then
        { slot with value := some value } :: rest
      else
        slot :: fill parameter value rest

end Slot

/-! ## Schemas

The elementary forms are a generic statement about its parameters, `x ∈ set_`,
an ordering of `x` and `y`, and the inclusion `∀x, x ∈ A ⇒ x ∈ B`. -/

inductive Form where
  | generic
  | membership
  | ordering (relation : Relation)
  | subset
  deriving DecidableEq

inductive Schema where
  | settled (statement : Proposition)
  | elementary (name : String) (slots : List Slot) (form : Form)
  | binary (name : String) (slots : List Slot)
      (left : Schema) (connective : Connective) (right : Schema)
  | quantified (name : String) (slots : List Slot)
      (quantifier : Quantifier) (inner : Schema)

namespace Schema

def slots : Schema → List Slot
  | settled _ => []
  | elementary _ slots _ => slots
  | binary _ slots _ _ _ => slots
  | quantified _ slots _ _ => slots

def name : Schema → String
  | settled _ => ""
  | elementary name _ _ => name
  | binary name _ _ _ _ => name
  | quantified name _ _ _ => name

/-- The free parameters in order of declaration. -/
def remaining (schema : Schema) : List (String × ArgumentKind) :=
  (schema.slots.filter Slot.isFree).map fun slot => (slot.parameter, slot.kind)

/-- The number of free parameters. -/
def arity (schema : Schema) : Nat :=
  schema.remaining.length

/-- The bound parameters and their values in order of declaration. -/
def bound (schema : Schema) : List (String × Argument) :=
  schema.slots.filterMap fun slot => slot.value.map fun value => (slot.parameter, value)

def value (schema : Schema) (parameter : String) : Option Argument :=
  (schema.bound.find? fun entry => entry.1 == parameter).map Prod.snd

/-- The slot that binding the parameter would fill. -/
def freeSlot (schema : Schema) (parameter : String) : Option Slot :=
  schema.slots.find? fun slot => slot.parameter = parameter ∧ slot.isFree

def declares (schema : Schema) (parameter : String) : Bool :=
  (schema.freeSlot parameter).isSome

/-! ## Construction

A composite declares the free parameters of its parts, each name once. -/

/-- Append the parameters whose names are not yet listed. -/
def merge (listed added : List (String × ArgumentKind)) : List (String × ArgumentKind) :=
  added.foldl
    (fun listed parameter =>
      if listed.any fun other => other.1 == parameter.1 then listed else listed ++ [parameter])
    listed

def generic (name : String) (parameters : List (String × ArgumentKind)) : Schema :=
  elementary name (parameters.map Slot.declare) .generic

def nullary (name : String) : Schema :=
  generic name []

def membership (name : String) : Schema :=
  elementary name ([("x", .object), ("set_", .set)].map Slot.declare) .membership

def ordering (name : String) (relation : Relation) : Schema :=
  elementary name ([("x", .object), ("y", .object)].map Slot.declare) (.ordering relation)

/-- The variable `x` can only be bound after both sets. -/
def subset (name : String) : Schema :=
  elementary name ([("x", .object), ("A", .set), ("B", .set)].map Slot.declare) .subset

def combine (name : String) (left : Schema) (connective : Connective) (right : Schema) : Schema :=
  binary name ((merge left.remaining right.remaining).map Slot.declare) left connective right

def implies (name : String) (left right : Schema) : Schema :=
  combine name left .implies right

/-- Binding the variable also binds the parameter of that name in the inner
schema. -/
def quantify (name : String) (quantifier : Quantifier) (variableName : String)
    (inner : Schema) : Schema :=
  quantified name ((merge [(variableName, .object)] inner.remaining).map Slot.declare)
    quantifier inner

def universal (name : String) (inner : Schema) : Schema :=
  quantify name .universal "x" inner

def existential (name : String) (inner : Schema) : Schema :=
  quantify name .existential "x" inner

/-! ## Text

Free places are shown as `_`. -/

def shownAt (slots : List Slot) (index : Nat) : String :=
  match slots[index]? with
  | some slot => slot.shown
  | none => "_"

def elementaryText (name : String) (slots : List Slot) : Form → String
  | .generic =>
      let entries := slots.filterMap fun slot =>
        slot.value.map fun value => slot.parameter ++ "=" ++ value.text ++ ","
      name ++ "(" ++ (if entries.isEmpty then "_" else String.join entries) ++ ")"
  | .membership => shownAt slots 0 ++ " ∈ " ++ shownAt slots 1
  | .ordering relation => shownAt slots 0 ++ " " ++ relation.symbol ++ " " ++ shownAt slots 1
  | .subset => shownAt slots 1 ++ " ⊆ " ++ shownAt slots 2

def binaryText (left right : String) : Connective → String
  | .implies => "[" ++ left ++ "=>" ++ right ++ "]"
  | .and => left ++ "∧" ++ right
  | .or => left ++ "∨" ++ right
  | .equivalent => "[" ++ left ++ "<=>" ++ right ++ "]"

def text : Schema → String
  | settled statement => statement.text
  | elementary name slots form => elementaryText name slots form
  | binary _ _ left connective right => binaryText left.text right.text connective
  | quantified _ slots quantifier inner =>
      quantifier.symbol ++ shownAt slots 0 ++ "(" ++ inner.text ++ ")"

def mentionedInSlots (slots : List Slot) : List SetId :=
  slots.flatMap fun slot => (slot.value.map Argument.mentioned).getD []

/-- The sets that a schema keeps in existence: those bound at any level and
those its settled parts speak about. -/
def mentioned : Schema → List SetId
  | settled statement => statement.mentioned
  | elementary _ slots _ => mentionedInSlots slots
  | binary _ slots left _ right =>
      mentionedInSlots slots ++ left.mentioned ++ right.mentioned
  | quantified _ slots _ inner => mentionedInSlots slots ++ inner.mentioned

end Schema

end Deduction
