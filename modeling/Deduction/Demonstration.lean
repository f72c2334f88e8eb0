import Deduction.Inference.Judgment
import Deduction.Inference.Quantifier
import Deduction.Schema.Application

/-! # Demonstrations

Sample derivations. Each builds its proof through the rules of the kernel. -/

namespace Deduction

structure Demonstration where
  name : String
  description : String
  derivation : Kernel Proof

namespace Demonstration

open Kernel

/-! ## Building blocks -/

def atom (name : String) : Proposition :=
  .atom name []

def assumeAtom (name : String) : Kernel Proof :=
  assume (.nullary name) []

def assumeImplication (name : String) (left right : Proposition) : Kernel Proof :=
  assume (.implies name (.settled left) (.settled right)) []

/-- Assert an implication between two atoms. -/
def assumeImplies (left right : String) : Kernel Proof :=
  assumeImplication (left ++ "=>" ++ right) (atom left) (atom right)

def unary (name : String) : Schema :=
  .generic name [("x", .object)]

def bindObject (parameter : String) (x : Object) : String × Option Argument :=
  (parameter, some (.object x))

def bindSet (parameter : String) (set : Collection) : String × Option Argument :=
  (parameter, some (.set set))

/-! ## Derivations -/

def syllogism : Kernel Proof := do
  let a ← assumeAtom "A"
  let ab ← assumeImplies "A" "B"
  let bx ← assumeImplies "B" "X"
  let notX ← assumeImplication "¬X" (atom "X") .falsum
  let ax ← hypotheticalSyllogism ab bx
  let notA ← hypotheticalSyllogism ax notX
  let both ← conjunction a notA
  let never ← nonContradiction (atom "A")
  modusPonens never both

def socrates : Kernel Proof := do
  let socrates ← object "Socrates"
  let mortality := Schema.implies "human=>mortal" (unary "Human") (unary "Mortal")
  let all ← assume (.universal "all" mortality) [bindObject "x" (← object "x")]
  let implication ← universalResolution all socrates
  let human ← assume (unary "Human") [bindObject "x" socrates]
  modusPonens implication human

def tollens : Kernel Proof := do
  let rainWet ← assumeImplies "Rain" "Wet"
  let dry ← assumeImplication "¬Wet" (atom "Wet") .falsum
  let noRain ← modusTollens rainWet dry
  let alternative ← implicationToOr rainWet
  let implication ← orToImplication alternative
  let back ← modusTollens implication dry
  conjunction noRain back

def equivalence : Kernel Proof := do
  let ab ← assumeImplies "A" "B"
  let ba ← assumeImplies "B" "A"
  let equivalence ← equivalenceIntroduction ab ba
  let (_, backward) ← equivalenceElimination equivalence
  let b ← assumeAtom "B"
  modusPonens backward b

/-- Assert the inclusion of one set in another. -/
def assumeSubset (smaller larger : Collection) (variableName : String) : Kernel Proof := do
  let inclusion ← applySchema (.subset "subset") [bindSet "A" smaller, bindSet "B" larger] false
  let x ← object variableName
  assertedProof (← applyReduction inclusion [bindObject "x" x] true)

def subset : Kernel Proof := do
  let numbers ← numberSets
  let rationalsInReals ← assumeSubset numbers.rationals numbers.reals "x"
  let naturalsInRationals ← assumeSubset numbers.naturals numbers.rationals "y"
  let three ← object "3"
  let natural ← proveMembership (.member three numbers.naturals)
  let rational ← modusPonens (← universalResolution naturalsInRationals three) natural
  modusPonens (← universalResolution rationalsInReals three) rational

def ordering : Kernel Proof := do
  let half ← object "1/2"
  let threeQuarters ← object "3/4"
  let strict ← instantiate (.ordering "lt" .less)
    [bindObject "x" half, bindObject "y" threeQuarters]
  let one ← object "1"
  let decimalHalf ← object "0.5"
  let weak ← instantiate (.ordering "le" .atMost)
    [bindObject "y" one, bindObject "x" decimalHalf]
  let strictProof ← proveOrdering strict
  let weakProof ← proveOrdering weak
  conjunction strictProof weakProof

def existential : Kernel Proof := do
  let people ← plainSet "People"
  let x ← objectIn "x" people
  let happiness := Schema.implies "wise=>happy" (unary "Wise") (unary "Happy")
  let all ← assume (.universal "all" happiness) [bindObject "x" x]
  let some ← assume (.existential "some" (unary "Wise")) [bindObject "x" x]
  let someHappy ← quantifiedModusPonens all some
  let (witness, happy) ← existentialResolution someHappy
  existentialIntroduction happy witness (← object "y")

def continuity : Kernel Proof := do
  let reals := (← numberSets).reals
  let zero ← objectIn "0" reals
  let epsilon ← objectIn "eps" reals
  let delta ← objectIn "del" reals
  let c ← objectIn "c" reals
  let x ← objectIn "x" reals
  let f ← functionSet "f" reals reals .onDemand
  let less := fun left right =>
    instantiate (.ordering "lt" .less) [bindObject "x" left, bindObject "y" right]
  let greater := Schema.ordering "gt" .greater
  let near ← less (← calculate .minus x c) delta
  let imageDistance ← calculate .minus (← apply f x) (← apply f c)
  let imagesNear ← less imageDistance epsilon
  let deltaPositive ← instantiate greater [bindObject "x" delta, bindObject "y" zero]
  let someDelta ← instantiate
    (.existential "exists_del" (.settled (deltaPositive.and (near.implies imagesNear))))
    [bindObject "x" delta]
  let epsilonPositive ← applySchema greater [bindObject "y" zero] false
  let implication := Schema.implies "eps_imp" epsilonPositive.part (.settled someDelta)
  let allEpsilon ← instantiate (.universal "all_eps" implication) [bindObject "x" epsilon]
  assume (.universal "all_x" (.settled allEpsilon)) [bindObject "x" x]

/-! ## Catalogue -/

def catalogue : List Demonstration :=
  [⟨"syllogism", "derive a contradiction from A, A ⇒ B, B ⇒ X and ¬X", syllogism⟩,
    ⟨"socrates", "all humans are mortal, Socrates is human", socrates⟩,
    ⟨"tollens", "modus tollens, then implication as disjunction", tollens⟩,
    ⟨"equivalence", "introduce and eliminate an equivalence", equivalence⟩,
    ⟨"subset", "3 ∈ R from N ⊆ Q and Q ⊆ R", subset⟩,
    ⟨"ordering", "decide orderings between numeric literals", ordering⟩,
    ⟨"existential", "universal modus ponens over an existential", existential⟩,
    ⟨"continuity", "assume continuity of a real function", continuity⟩]

def find (name : String) : Option Demonstration :=
  catalogue.find? fun demonstration => demonstration.name == name

/-- Run a demonstration in an empty store. -/
def run (demonstration : Demonstration) : Except Fault Proof × Store :=
  demonstration.derivation.run.run Store.empty

end Demonstration

end Deduction
