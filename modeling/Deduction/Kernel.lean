import Deduction.Proposition.Substitution
import Deduction.Store

/-! # The kernel

Operations on the store. An operation may be refused with a fault; what it
did before stays done. -/

namespace Deduction

abbrev Kernel := ExceptT Fault (StateM Store)

namespace Kernel

def report (event : Event) : Kernel Unit :=
  modify fun store => { store with journal := store.journal ++ [event] }

def reportAll (events : List Event) : Kernel Unit :=
  modify fun store => { store with journal := store.journal ++ events }

/-! ## Creation -/

def create (name : String) (owner : Option SetId) (components : List Object) : Kernel Object :=
  modifyGet fun store =>
    let id := store.created + 1
    (⟨id, name, owner, components⟩, { store with created := id })

/-- An object that belongs to no set; it is unnamed if the name is empty. -/
def object (name : String) : Kernel Object :=
  create name none []

/-- An object that belongs to a set, which does not insert it there. -/
def objectIn (name : String) (set : Collection) : Kernel Object :=
  create name (some set.id) []

def tuple (components : List Object) : Kernel Object :=
  create (tupleName components) none components

/-- Form a set, given how it results from its number. -/
def form (make : SetId → Collection) : Kernel Collection :=
  modifyGet fun store =>
    let id := store.formed + 1
    let set := make id
    (set, { store with formed := id, living := set :: store.living })

def plainSet (name : String) : Kernel Collection :=
  form fun id => .plain id name

def productSet (name : String) (factors : List Collection) : Kernel Collection :=
  form fun id => .product id name factors

def functionSet (name : String) (domain range : Collection) (mapping : Mapping) :
    Kernel Collection :=
  form fun id => .function id name domain range mapping

/-- The naturals, the rationals on top of them, and the reals on top of those. -/
structure Numbers where
  naturals : Collection
  rationals : Collection
  reals : Collection

def numberSets : Kernel Numbers := do
  let naturals ← form fun id => .number (.naturals id)
  let rationals ← form fun id => .number (.rationals id naturals.id)
  let reals ← form fun id => .number (.reals id rationals.id naturals.id)
  return ⟨naturals, rationals, reals⟩

/-- A numeral that belongs to the first of the three sets whose literal it is. -/
def literal (numbers : Numbers) (name : String) : Kernel (Option Object) := do
  let set := [numbers.naturals, numbers.rationals, numbers.reals].find? fun set =>
    match set.numberKind with
    | some kind => kind.isLiteral name
    | none => false
  match set with
  | some set => some <$> objectIn name set
  | none => return none

/-! ## Members -/

/-- Inserting an object that was inserted before has no effect. -/
def insert (set : Collection) (x : Object) : Kernel Unit := do
  if set.isExtensible then
    let store ← get
    if (store.members set.id).contains x then
      pure ()
    else
      report (.inserted x set)
      modify fun store => store.addMember set.id x
  else
    throw (.notExtensible set)

/-! ## Arithmetic

Adding or subtracting takes place in the number set that the left operand
belongs to. The result is exact between numerals and symbolic otherwise. The
naturals are left by results that are numerals but no naturals. -/

inductive Operation where
  | plus
  | minus
  deriving DecidableEq

namespace Operation

def symbol : Operation → String
  | plus => "+"
  | minus => "-"

def value : Operation → Rat → Rat → Rat
  | plus, left, right => left + right
  | minus, left, right => left - right

def resultName (operation : Operation) (left right : Object) : String :=
  match Numeral.read left.name, Numeral.read right.name with
  | some a, some b => Numeral.write (operation.value a b)
  | _, _ => left.text ++ " " ++ operation.symbol ++ " " ++ right.text

end Operation

def leavesNaturals (kind : NumberKind) (name : String) : Bool :=
  kind = .naturals && (Numeral.read name).isSome && !NumberKind.naturals.isLiteral name

def calculate (operation : Operation) (left right : Object) : Kernel Object := do
  let store ← get
  match store.owner left with
  | some (.number set) =>
      let name := operation.resultName left right
      if leavesNaturals set.kind name then
        create name none []
      else
        create name (some set.id) []
  | _ => throw (.noArithmetic left)

/-! ## Application

A function given by a closed form is evaluated at any object, also outside of
its domain. Otherwise an object is mapped to the image it was given before or
to a new one, which becomes a member of the range if that accepts members. -/

def image (function : SetId) (name : String) (domain range : Collection) (x : Object) :
    Kernel Object := do
  let store ← get
  if store.contains domain x then
    match store.images function x.id with
    | some image => return image
    | none =>
        let image ← objectIn (name ++ "(" ++ x.text ++ ")") range
        report (.imageCreated image range)
        modify fun store => store.setImage function x.id image
        if range.isExtensible then
          insert range image
        return image
  else
    throw (.notMember x domain)

mutual

def apply : Collection → Object → Kernel Object
  | .function id name domain range mapping, x =>
      applyMapping (image id name domain range) mapping x
  | set, _ => throw (.notFunction set)

def applyMapping (image : Object → Kernel Object) : Mapping → Object → Kernel Object
  | .onDemand, x => image x
  | .plus summand, x => calculate .plus x summand
  | .minus subtrahend, x => calculate .minus x subtrahend
  | .constant value, _ => return value
  | .identity, x => return x
  | .pair, x => tuple [x, x]
  | .compose outer inner, x => do
      let y ← apply inner x
      apply outer y

end

/-! ## Substitution and certificates -/

def substitute (p : Proposition) (old new : Object) : Kernel Proposition :=
  modifyGet fun store =>
    let (result, created) := p.substitute old new store.created
    (result, { store with created })

/-- Issue a proof. This is done only by rules that have checked that the
conclusion follows from the premises. -/
def certify (conclusion : Proposition) (rule : Rule) (premises : List Proof) : Kernel Proof := do
  report (.certified rule conclusion)
  modifyGet fun store =>
    let serial := store.certified + 1
    (⟨serial, conclusion, rule, premises⟩, { store with certified := serial })

/-- The set that restricts a bound variable. -/
def domain (bound : Object) : Kernel (Option Collection) := do
  liftExcept ((← get).domain bound)

end Kernel

end Deduction
