import Deduction.Numeral
import Deduction.Object

/-! # Collections

The sets of the domain of discourse: plain sets with explicit members, number
sets, products and functions. A collection describes how a set was formed; its
members and the images of a function are kept in the store. -/

namespace Deduction

/-! ## Number sets

The rationals are formed on top of a set of naturals and the reals on top of a
set of rationals, so a larger number set determines the smaller ones. -/

inductive NumberSet where
  | naturals (id : SetId)
  | rationals (id naturals : SetId)
  | reals (id rationals naturals : SetId)
  deriving DecidableEq

namespace NumberSet

def id : NumberSet → SetId
  | naturals id => id
  | rationals id _ => id
  | reals id _ _ => id

def kind : NumberSet → NumberKind
  | naturals _ => .naturals
  | rationals _ _ => .rationals
  | reals _ _ _ => .reals

/-- The next smaller number set. -/
def smaller : NumberSet → Option NumberSet
  | naturals _ => none
  | rationals _ n => some (.naturals n)
  | reals _ q n => some (.rationals q n)

/-- The number set together with all smaller ones, the largest first. -/
def chain : NumberSet → List NumberSet
  | naturals n => [.naturals n]
  | rationals q n => [.rationals q n, .naturals n]
  | reals r q n => [.reals r q n, .rationals q n, .naturals n]

end NumberSet

/-! ## Collections and mappings

A mapping says how a function finds its images. Images `onDemand` are created
at the first application; the other mappings are closed forms. -/

mutual

inductive Collection where
  | plain (id : SetId) (name : String)
  | number (set : NumberSet)
  | product (id : SetId) (name : String) (factors : List Collection)
  | function (id : SetId) (name : String) (domain range : Collection) (mapping : Mapping)

inductive Mapping where
  | onDemand
  | plus (summand : Object)
  | minus (subtrahend : Object)
  | constant (value : Object)
  | identity
  | pair
  | compose (outer inner : Collection)

end

namespace Collection

def id : Collection → SetId
  | plain id _ => id
  | number set => set.id
  | product id _ _ => id
  | function id _ _ _ _ => id

def name : Collection → String
  | plain _ name => name
  | number set => set.kind.letter
  | product _ name _ => name
  | function _ name _ _ _ => name

/-- Sets are equal if they have the same name. -/
instance : BEq Collection where
  beq left right := left.name == right.name

theorem beq_iff_name {left right : Collection} :
    (left == right) = true ↔ left.name = right.name := by
  simp [BEq.beq]

/-- Sets are the same if they arose from one act of creation. Only then do they
share members and images. -/
def same (left right : Collection) : Bool :=
  left.id == right.id

def numberKind : Collection → Option NumberKind
  | number set => some set.kind
  | _ => none

/-- Plain sets and number sets accept further members. -/
def isExtensible : Collection → Bool
  | plain _ _ => true
  | number _ => true
  | product _ _ _ => false
  | function _ _ _ _ _ => false

mutual

/-- Holds if enumerating the set comes to an end. -/
def isFinite : Collection → Bool
  | plain _ _ => true
  | number _ => false
  | product _ _ factors => allFinite factors
  | function _ _ _ _ _ => false

def allFinite : List Collection → Bool
  | [] => true
  | head :: tail => isFinite head && allFinite tail

end

/-- A set includes itself, and a number set includes the smaller ones it was
formed on. -/
def includes (larger smaller : Collection) : Bool :=
  larger.same smaller ||
    match larger with
    | number set => set.chain.any fun level => level.id == smaller.id
    | _ => false

/-- The name together with the construction of the set. -/
def signature : Collection → String
  | product _ name factors => name ++ ":" ++ "×".intercalate (factors.map Collection.name)
  | function _ name domain range _ => name ++ ":" ++ domain.name ++ "->" ++ range.name
  | set => set.name

/-- The sets that a mapping is composed of. -/
def partsOfMapping : Mapping → List SetId
  | .compose outer inner => [outer.id, inner.id]
  | .onDemand => []
  | .plus _ => []
  | .minus _ => []
  | .constant _ => []
  | .identity => []
  | .pair => []

/-- The sets that a set was formed of and keeps in existence. All of them were
formed before it. -/
def parts : Collection → List SetId
  | plain _ _ => []
  | number set => set.chain.tail.map NumberSet.id
  | product _ _ factors => factors.map Collection.id
  | function _ _ domain range mapping => domain.id :: range.id :: partsOfMapping mapping

end Collection

end Deduction
