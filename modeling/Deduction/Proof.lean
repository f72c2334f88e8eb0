import Deduction.Proposition
import Std.Data.HashSet

/-! # Proofs

A proof certifies a proposition: it records the rule that concluded it and the
proofs it was concluded from. Proofs are issued by the inference rules, which
give each one a serial number of its own. -/

namespace Deduction

/-! ## Rules -/

inductive Rule where
  | postulate
  | modusPonens
  | hypotheticalSyllogism
  | modusTollens
  | contradiction
  | conjunction
  | andLeft
  | andRight
  | commuteAnd
  | commuteOr
  | disjunction
  | equivalenceIntroduction
  | equivalenceElimination
  | implicationToOr
  | orToImplication
  | explosion
  | excludedMiddle
  | nonContradiction
  | trivial
  | universalResolution
  | existentialResolution
  | existentialIntroduction
  | quantifiedModusPonens
  | membership
  | ordering
  deriving DecidableEq

def Rule.name : Rule → String
  | postulate => "Axiom"
  | modusPonens => "ModusPonens"
  | hypotheticalSyllogism => "HypotheticalSyllogism"
  | modusTollens => "ModusTollens"
  | contradiction => "Contradiction"
  | conjunction => "Conjunction"
  | andLeft => "AndLeft"
  | andRight => "AndRight"
  | commuteAnd => "CommuteAnd"
  | commuteOr => "CommuteOr"
  | disjunction => "Disjunction"
  | equivalenceIntroduction => "EquivIntro"
  | equivalenceElimination => "EquivElim"
  | implicationToOr => "ImplicationToOr"
  | orToImplication => "OrToImplication"
  | explosion => "Explosion"
  | excludedMiddle => "ExcludedMiddle"
  | nonContradiction => "NonContradiction"
  | trivial => "Trivial"
  | universalResolution => "UniversalResolve"
  | existentialResolution => "ExistentialResolve"
  | existentialIntroduction => "ExistentialProof"
  | quantifiedModusPonens => "ForAllModusPonens"
  | membership => "Membership"
  | ordering => "Ordering"

/-! ## Derivations -/

structure Proof where
  serial : Nat
  conclusion : Proposition
  rule : Rule
  premises : List Proof

namespace Proof

/-- Proofs are equal if they prove the same proposition. -/
instance : BEq Proof where
  beq left right := left.conclusion == right.conclusion

/-- Proofs are the same if they were issued by one application of a rule. -/
def same (left right : Proof) : Bool :=
  left.serial == right.serial

def text (proof : Proof) : String :=
  "Proof(" ++ proof.conclusion.text ++ ")"

mutual

/-- The number of rule applications in the derivation. -/
def size : Proof → Nat
  | ⟨_, _, _, premises⟩ => sizeOfAll premises + 1

def sizeOfAll : List Proof → Nat
  | [] => 0
  | head :: tail => size head + sizeOfAll tail

end

/-! ## Trees

A derivation is written conclusion first, one line per rule application, each
premise two blanks deeper than what it supports. -/

def indentation (depth : Nat) : String :=
  String.ofList (List.replicate (2 * depth) ' ')

mutual

def lines (depth : Nat) : Proof → List String
  | ⟨_, conclusion, rule, premises⟩ =>
      (indentation depth ++ conclusion.text ++ " [" ++ rule.name ++ "]") ::
        linesOfAll (depth + 1) premises

def linesOfAll (depth : Nat) : List Proof → List String
  | [] => []
  | head :: tail => lines depth head ++ linesOfAll depth tail

end

def tree (proof : Proof) : String :=
  String.join ((proof.lines 0).map (· ++ "\n"))

/-! The sets that a proof keeps in existence are those of all propositions in
its derivation. A derivation may use one proof many times, so the serial numbers
of the proofs that were visited are remembered. -/

mutual

def gather : Proof → Std.HashSet Nat × List SetId → Std.HashSet Nat × List SetId
  | ⟨serial, conclusion, _, premises⟩, (visited, sets) =>
      if visited.contains serial then
        (visited, sets)
      else
        gatherAll premises (visited.insert serial, conclusion.mentioned ++ sets)

def gatherAll : List Proof → Std.HashSet Nat × List SetId → Std.HashSet Nat × List SetId
  | [], gathered => gathered
  | head :: tail, gathered => gatherAll tail (gather head gathered)

end

def mentioned (proof : Proof) : List SetId :=
  (proof.gather ({}, [])).2

end Proof

end Deduction
