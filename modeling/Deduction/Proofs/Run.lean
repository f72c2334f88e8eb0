import Deduction.Proofs.Substitution
import Deduction.Session.Reply

/-! # Runs

A caller of the kernel may make any calls in any order, on values that it got
from earlier calls, read off such values or built from them. A run is the store
that its calls have led to together with a record of the calls and of what they
returned. -/

namespace Deduction

open Session (Item)

/-! ## Outcomes -/

/-- What an operation returns, or why it was refused, and the store after it. -/
def Kernel.outcome {α : Type} (action : Kernel α) (store : Store) : Except Fault α × Store :=
  action.run.run store

/-! ## Calls of rules -/

/-- A call of an inference rule, with the values it is made on. -/
inductive RuleCall where
  | modusPonens (ab a : Proof)
  | hypotheticalSyllogism (ab bc : Proof)
  | modusTollens (ab denial : Proof)
  | contradiction (a denial : Proof)
  | conjunction (a b : Proof)
  | andLeft (ab : Proof)
  | andRight (ab : Proof)
  | commuteAnd (ab : Proof)
  | commuteOr (ab : Proof)
  | disjunction (a : Proof) (b : Proposition)
  | equivalenceIntroduction (ab ba : Proof)
  | equivalenceElimination (equivalence : Proof)
  | implicationToOr (ab : Proof)
  | orToImplication (ab : Proof)
  | explosion (falsity : Proof) (a : Proposition)
  | excludedMiddle (a : Proposition)
  | nonContradiction (a : Proposition)
  | trivial (a : Proposition)
  | universalResolution (all : Proof) (y : Object)
  | existentialResolution (existence : Proof)
  | existentialIntroduction (instanceProof : Proof) (y x : Object)
  | quantifiedModusPonens (all premise : Proof)

namespace RuleCall

def rule : RuleCall → Rule
  | modusPonens _ _ => .modusPonens
  | hypotheticalSyllogism _ _ => .hypotheticalSyllogism
  | modusTollens _ _ => .modusTollens
  | contradiction _ _ => .contradiction
  | conjunction _ _ => .conjunction
  | andLeft _ => .andLeft
  | andRight _ => .andRight
  | commuteAnd _ => .commuteAnd
  | commuteOr _ => .commuteOr
  | disjunction _ _ => .disjunction
  | equivalenceIntroduction _ _ => .equivalenceIntroduction
  | equivalenceElimination _ => .equivalenceElimination
  | implicationToOr _ => .implicationToOr
  | orToImplication _ => .orToImplication
  | explosion _ _ => .explosion
  | excludedMiddle _ => .excludedMiddle
  | nonContradiction _ => .nonContradiction
  | trivial _ => .trivial
  | universalResolution _ _ => .universalResolution
  | existentialResolution _ => .existentialResolution
  | existentialIntroduction _ _ _ => .existentialIntroduction
  | quantifiedModusPonens _ _ => .quantifiedModusPonens

def premises : RuleCall → List Proof
  | modusPonens ab a => [ab, a]
  | hypotheticalSyllogism ab bc => [ab, bc]
  | modusTollens ab denial => [ab, denial]
  | contradiction a denial => [a, denial]
  | conjunction a b => [a, b]
  | andLeft ab => [ab]
  | andRight ab => [ab]
  | commuteAnd ab => [ab]
  | commuteOr ab => [ab]
  | disjunction a _ => [a]
  | equivalenceIntroduction ab ba => [ab, ba]
  | equivalenceElimination equivalence => [equivalence]
  | implicationToOr ab => [ab]
  | orToImplication ab => [ab]
  | explosion falsity _ => [falsity]
  | excludedMiddle _ => []
  | nonContradiction _ => []
  | trivial _ => []
  | universalResolution all _ => [all]
  | existentialResolution existence => [existence]
  | existentialIntroduction instanceProof _ _ => [instanceProof]
  | quantifiedModusPonens all premise => [all, premise]

/-- The propositions that a rule takes besides its premises. -/
def statements : RuleCall → List Proposition
  | disjunction _ b => [b]
  | explosion _ a => [a]
  | excludedMiddle a => [a]
  | nonContradiction a => [a]
  | trivial a => [a]
  | _ => []

def objects : RuleCall → List Object
  | universalResolution _ y => [y]
  | existentialIntroduction _ y x => [y, x]
  | _ => []

def operands (call : RuleCall) : List Item :=
  call.premises.map .proof ++ call.statements.map .proposition ++ call.objects.map .object

end RuleCall

/-- Return the outcome of an operation as the only item. -/
def Kernel.single {α : Type} (wrap : α → Item) (action : Kernel α) : Kernel (List Item) := do
  return [wrap (← action)]

open Kernel (single)

def RuleCall.perform : RuleCall → Kernel (List Item)
  | modusPonens ab a => single .proof (Kernel.modusPonens ab a)
  | hypotheticalSyllogism ab bc => single .proof (Kernel.hypotheticalSyllogism ab bc)
  | modusTollens ab denial => single .proof (Kernel.modusTollens ab denial)
  | contradiction a denial => single .proof (Kernel.contradiction a denial)
  | conjunction a b => single .proof (Kernel.conjunction a b)
  | andLeft ab => single .proof (Kernel.andLeft ab)
  | andRight ab => single .proof (Kernel.andRight ab)
  | commuteAnd ab => single .proof (Kernel.commuteAnd ab)
  | commuteOr ab => single .proof (Kernel.commuteOr ab)
  | disjunction a b => single .proof (Kernel.disjunction a b)
  | equivalenceIntroduction ab ba => single .proof (Kernel.equivalenceIntroduction ab ba)
  | equivalenceElimination equivalence => do
      let (forward, backward) ← Kernel.equivalenceElimination equivalence
      return [.proof forward, .proof backward]
  | implicationToOr ab => single .proof (Kernel.implicationToOr ab)
  | orToImplication ab => single .proof (Kernel.orToImplication ab)
  | explosion falsity a => single .proof (Kernel.explosion falsity a)
  | excludedMiddle a => single .proof (Kernel.excludedMiddle a)
  | nonContradiction a => single .proof (Kernel.nonContradiction a)
  | trivial a => single .proof (Kernel.trivial a)
  | universalResolution all y => single .proof (Kernel.universalResolution all y)
  | existentialResolution existence => do
      let (witness, proof) ← Kernel.existentialResolution existence
      return [.object witness, .proof proof]
  | existentialIntroduction instanceProof y x =>
      single .proof (Kernel.existentialIntroduction instanceProof y x)
  | quantifiedModusPonens all premise => single .proof (Kernel.quantifiedModusPonens all premise)

/-! ## Calls -/

/-- A call that changes the store or issues proofs. -/
inductive Call where
  | object (name : String)
  | objectIn (name : String) (set : Collection)
  | tuple (components : List Object)
  | calculate (operation : Kernel.Operation) (left right : Object)
  | plainSet (name : String)
  | productSet (name : String) (factors : List Collection)
  | functionSet (name : String) (domain range : Collection) (mapping : Mapping)
  | numberSets
  | literal (numbers : Kernel.Numbers) (name : String)
  | insert (set : Collection) (x : Object)
  | enumerate (set : Collection)
  | take (count : Nat) (cursor : Cursor)
  | apply (function : Collection) (x : Object)
  | substitute (p : Proposition) (old new : Object)
  | applySchema (schema : Schema) (bindings : Bindings) (assert : Bool)
  | applyReduction (reduction : Reduction) (bindings : Bindings) (assert : Bool)
  | instantiate (schema : Schema) (bindings : Bindings)
  | assume (schema : Schema) (bindings : Bindings)
  | assertedProof (reduction : Reduction)
  | proveMembership (statement : Proposition)
  | proveOrdering (statement : Proposition)
  | rule (call : RuleCall)

def Argument.item : Argument → Item
  | object x => .object x
  | set s => .set s

def Mapping.operands : Mapping → List Item
  | plus summand => [.object summand]
  | minus subtrahend => [.object subtrahend]
  | constant value => [.object value]
  | compose outer inner => [.set outer, .set inner]
  | onDemand => []
  | identity => []
  | pair => []

def Bindings.operands (bindings : Bindings) : List Item :=
  bindings.present.map fun binding => binding.2.item

namespace Call

/-- The values that a call is made on. -/
def operands : Call → List Item
  | object _ => []
  | objectIn _ set => [.set set]
  | tuple components => components.map .object
  | calculate _ left right => [.object left, .object right]
  | plainSet _ => []
  | productSet _ factors => factors.map .set
  | functionSet _ domain range mapping => .set domain :: .set range :: mapping.operands
  | numberSets => []
  | literal numbers _ => [.set numbers.naturals, .set numbers.rationals, .set numbers.reals]
  | insert set x => [.set set, .object x]
  | enumerate set => [.set set]
  | take _ cursor => [.cursor cursor]
  | apply function x => [.set function, .object x]
  | substitute p old new => [.proposition p, .object old, .object new]
  | applySchema schema bindings _ => .schema schema :: bindings.operands
  | applyReduction reduction bindings _ => .reduction reduction :: bindings.operands
  | instantiate schema bindings => .schema schema :: bindings.operands
  | assume schema bindings => .schema schema :: bindings.operands
  | assertedProof reduction => [.reduction reduction]
  | proveMembership statement => [.proposition statement]
  | proveOrdering statement => [.proposition statement]
  | rule call => call.operands

def perform : Call → Kernel (List Item)
  | object name => single .object (Kernel.object name)
  | objectIn name set => single .object (Kernel.objectIn name set)
  | tuple components => single .object (Kernel.tuple components)
  | calculate operation left right => single .object (Kernel.calculate operation left right)
  | plainSet name => single .set (Kernel.plainSet name)
  | productSet name factors => single .set (Kernel.productSet name factors)
  | functionSet name domain range mapping =>
      single .set (Kernel.functionSet name domain range mapping)
  | numberSets => do
      let numbers ← Kernel.numberSets
      return [.set numbers.naturals, .set numbers.rationals, .set numbers.reals]
  | literal numbers name => do
      return ((← Kernel.literal numbers name).map Item.object).toList
  | insert set x => do
      Kernel.insert set x
      return []
  | enumerate set => single .cursor (Kernel.enumerate set)
  | take count cursor => do
      let (objects, rest) ← Kernel.take count cursor
      return .cursor rest :: objects.map .object
  | apply function x => single .object (Kernel.apply function x)
  | substitute p old new => single .proposition (Kernel.substitute p old new)
  | applySchema schema bindings assert =>
      single .reduction (Kernel.applySchema schema bindings assert)
  | applyReduction reduction bindings assert =>
      single .reduction (Kernel.applyReduction reduction bindings assert)
  | instantiate schema bindings => single .proposition (Kernel.instantiate schema bindings)
  | assume schema bindings => single .proof (Kernel.assume schema bindings)
  | assertedProof reduction => single .proof (Kernel.assertedProof reduction)
  | proveMembership statement => single .proof (Kernel.proveMembership statement)
  | proveOrdering statement => single .proof (Kernel.proveOrdering statement)
  | rule call => call.perform

end Call

/-! ## Runs -/

structure Run.Entry where
  call : Call
  results : List Item

namespace Run.Entry

/-- A schema was reduced and the proposition asserted. -/
def asserts : Entry → Bool
  | ⟨.applySchema _ _ true, [.reduction (.asserted _)]⟩ => true
  | ⟨.applyReduction _ _ true, [.reduction (.asserted _)]⟩ => true
  | ⟨.assume _ _, [.proof _]⟩ => true
  | _ => false

/-- The witness of an existence and what was proved of it. -/
def resolution : Entry → Option (Object × Proof)
  | ⟨.rule (.existentialResolution _), [.object witness, .proof proof]⟩ => some (witness, proof)
  | _ => none

end Run.Entry

structure Run where
  store : Store
  /-- The calls made so far, the latest first. -/
  history : List Run.Entry

/-- What has to be held in order to use a schema as a part of another one. -/
def Schema.item : Schema → Item
  | settled statement => .proposition statement
  | schema => .schema schema

namespace Run

def start : Run where
  store := .empty
  history := []

/-- What a call returns, which is nothing if it is refused. -/
def results (run : Run) (call : Call) : List Item :=
  match (Kernel.outcome call.perform run.store).1 with
  | .ok items => items
  | .error _ => []

def after (run : Run) (call : Call) : Run where
  store := (Kernel.outcome call.perform run.store).2
  history := ⟨call, run.results call⟩ :: run.history

/-- Let all sets but the given ones cease to exist. -/
def release (run : Run) (isKept : SetId → Bool) : Run :=
  { run with store := run.store.retain isKept }

/-- The existences resolved so far, the latest first. -/
def resolutions (run : Run) : List (Object × Proof) :=
  run.history.filterMap Entry.resolution

/-- The values at the caller's disposal: what calls returned, what can be read
off such values, and the propositions and schemas that can be built from them. -/
inductive Holds (run : Run) : Item → Prop
  | result {entry : Entry} {item : Item} :
      entry ∈ run.history → item ∈ entry.results → Holds run item
  | component {x component : Object} :
      Holds run (.object x) → component ∈ x.components → Holds run (.object component)
  | owner {x : Object} {set : Collection} :
      Holds run (.object x) → run.store.owner x = some set → Holds run (.set set)
  | proposition {p : Proposition} :
      (∀ x ∈ p.objects, Holds run (.object x)) → (∀ set ∈ p.sets, Holds run (.set set)) →
      Holds run (.proposition p)
  | objectOf {p : Proposition} {x : Object} :
      Holds run (.proposition p) → x ∈ p.objects → Holds run (.object x)
  | setOf {p : Proposition} {set : Collection} :
      Holds run (.proposition p) → set ∈ p.sets → Holds run (.set set)
  | conclusion {proof : Proof} :
      Holds run (.proof proof) → Holds run (.proposition proof.conclusion)
  | premise {proof premise : Proof} :
      Holds run (.proof proof) → premise ∈ proof.premises → Holds run (.proof premise)
  | generic (name : String) (parameters : List (String × ArgumentKind)) :
      Holds run (.schema (.generic name parameters))
  | membership (name : String) : Holds run (.schema (.membership name))
  | ordering (name : String) (relation : Relation) : Holds run (.schema (.ordering name relation))
  | subset (name : String) : Holds run (.schema (.subset name))
  | combine (name : String) (connective : Connective) {left right : Schema} :
      Holds run left.item → Holds run right.item →
      Holds run (.schema (.combine name left connective right))
  | quantify (name : String) (quantifier : Quantifier) (variableName : String) {inner : Schema} :
      Holds run inner.item → Holds run (.schema (.quantify name quantifier variableName inner))
  | boundValue {schema : Schema} {parameter : String} {value : Argument} :
      Holds run (.schema schema) → (parameter, value) ∈ schema.bound → Holds run value.item
  | reducedSchema {reduction : Reduction} {schema : Schema} :
      Holds run (.reduction reduction) → reduction.schema = some schema →
      Holds run (.schema schema)
  | reducedStatement {reduction : Reduction} {statement : Proposition} :
      Holds run (.reduction reduction) → reduction.statement = some statement →
      Holds run (.proposition statement)

/-- The runs that calls on held values lead to. Sets may cease to exist at any
time, since it is up to the caller which of them it keeps. -/
inductive Reachable : Run → Prop
  | start : Reachable start
  | after {run : Run} {call : Call} :
      Reachable run → (∀ item ∈ call.operands, run.Holds item) → Reachable (run.after call)
  | release {run : Run} (isKept : SetId → Bool) : Reachable run → Reachable (run.release isKept)

/-! Samples with numbers often begin with the number sets. -/

namespace Sample

def lowest : Collection := .number (.naturals 1)

def middle : Collection := .number (.rationals 2 1)

def highest : Collection := .number (.reals 3 2 1)

def counted : Run :=
  start.after .numberSets

theorem reachable_counted : counted.Reachable :=
  .after .start (List.forall_mem_nil _)

end Sample

end Run

end Deduction
