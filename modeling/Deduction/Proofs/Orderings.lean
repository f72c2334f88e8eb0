import Deduction.Proofs.Success
import Mathlib.Algebra.Order.Ring.Unbundled.Rat

/-! # Orderings

An ordering of numerals is decided by their values. So the orderings that can be proved agree
with the order of the rational numbers, in whatever notation the numerals are written. -/

namespace Deduction

open Numeral (read)

/-! ## Relations between numbers -/

namespace Relation

variable {a b c : Rat} {relation : Relation}

/-- The one of `<`, `=` and `>` that holds. -/
def between (a b : Rat) : Relation :=
  if a < b then less else if a = b then equal else greater

/-- The relation that follows from two relations in a row, if one does. -/
def compose : Relation → Relation → Option Relation
  | equal, second => some second
  | first, equal => some first
  | atMost, atMost => some atMost
  | less, less | less, atMost | atMost, less => some less
  | atLeast, atLeast => some atLeast
  | greater, greater | greater, atLeast | atLeast, greater => some greater
  | _, _ => none

theorem holds_iff_between (isAlternative : relation ∈ [less, equal, greater]) :
    relation.holds a b = true ↔ relation = between a b := by
  simp only [List.mem_cons, List.not_mem_nil, or_false] at isAlternative
  rcases isAlternative with rfl | rfl | rfl <;> grind [holds, between]

theorem existsUnique_holds (a b : Rat) :
    ∃! relation, relation ∈ [less, equal, greater] ∧ relation.holds a b = true := by
  have isAlternative : between a b ∈ [less, equal, greater] := by grind [between]
  refine ⟨between a b, ⟨isAlternative, (holds_iff_between isAlternative).mpr rfl⟩, ?_⟩
  rintro relation ⟨isOther, holds⟩
  exact (holds_iff_between isOther).mp holds

theorem holds_atMost_iff :
    atMost.holds a b = true ↔ less.holds a b = true ∨ equal.holds a b = true := by
  simp only [holds, decide_eq_true_eq]
  exact le_iff_lt_or_eq

theorem holds_atLeast_iff :
    atLeast.holds a b = true ↔ greater.holds a b = true ∨ equal.holds a b = true := by
  simp only [holds, decide_eq_true_eq]
  rw [le_iff_lt_or_eq, eq_comm]

theorem holds_compose {first second third : Relation} (composed : first.compose second = some third)
    (isFirst : first.holds a b = true) (isSecond : second.holds b c = true) :
    third.holds a c = true := by
  cases first <;> cases second <;> cases composed <;> grind [holds]

theorem evaluate_of_numerals {x y : Object} (left : read x.name = some a)
    (right : read y.name = some b) (relation : Relation) :
    relation.evaluate x y = some (relation.holds a b) := by
  rw [evaluate, left, right]

theorem evaluate_of_symbol {x y : Object}
    (isSymbolic : read x.name = none ∨ read y.name = none) (relation : Relation) :
    relation.evaluate x y = none := by
  rw [evaluate]
  split
  · rename_i left right
    rcases isSymbolic with noLeft | noRight
    · cases noLeft.symm.trans left
    · cases noRight.symm.trans right
  · rfl

end Relation

/-! ## Provable orderings -/

namespace Kernel

variable {x y z : Object} {relation : Relation} {a b : Rat}

/-- The ordering is proved in any store. -/
def Certified (x : Object) (relation : Relation) (y : Object) : Prop :=
  ∀ store, ∃ proof after,
    outcome (proveOrdering (.ordered x relation y)) store = (.ok proof, after) ∧
    proof.conclusion = .ordered x relation y ∧ proof.rule = .ordering ∧ proof.premises = []

theorem outcome_proveOrdering_of_false (isFalse : relation.evaluate x y = some false)
    (store : Store) :
    outcome (proveOrdering (.ordered x relation y)) store =
      (.error (.relationFalse (.ordered x relation y)), store) := by
  rw [proveOrdering, Inference.judgeOrdering, isFalse]
  rfl

theorem outcome_proveOrdering_of_none (isNone : relation.evaluate x y = none) (store : Store) :
    outcome (proveOrdering (.ordered x relation y)) store =
      (.error (.notComparable x y), store) := by
  rw [proveOrdering, Inference.judgeOrdering, isNone]
  rfl

theorem certified_iff_evaluate : Certified x relation y ↔ relation.evaluate x y = some true := by
  constructor
  · intro certified
    obtain ⟨proof, after, ok, _⟩ := certified .empty
    cases evaluated : relation.evaluate x y with
    | none =>
        rw [outcome_proveOrdering_of_none evaluated] at ok
        cases ok
    | some holds =>
        cases holds with
        | false =>
            rw [outcome_proveOrdering_of_false evaluated] at ok
            cases ok
        | true => rfl
  · intro isTrue store
    rw [proveOrdering, Inference.judgeOrdering, isTrue]
    exact ⟨_, _, rfl, rfl, rfl, rfl⟩

theorem certified_iff_holds (left : read x.name = some a) (right : read y.name = some b) :
    Certified x relation y ↔ relation.holds a b = true := by
  rw [certified_iff_evaluate, Relation.evaluate_of_numerals left right, Option.some.injEq]

theorem numerals_of_certified (certified : Certified x relation y) :
    ∃ a b, read x.name = some a ∧ read y.name = some b ∧ relation.holds a b = true := by
  have isTrue := certified_iff_evaluate.mp certified
  rw [Relation.evaluate] at isTrue
  split at isTrue
  · rename_i a b left right
    exact ⟨a, b, left, right, Option.some.inj isTrue⟩
  · cases isTrue

/-- What is proved to be equal has one value. -/
theorem read_eq_of_certified (equal : Certified x .equal y) : read x.name = read y.name := by
  obtain ⟨a, b, left, right, isEqual⟩ := numerals_of_certified equal
  rw [left, right, of_decide_eq_true isEqual]

/-- Whatever the numerals are, the weak relation is proved if one of the two that it allows is. -/
theorem certified_or_iff {first second : Relation}
    (allows : ∀ a b, relation.holds a b = true ↔ first.holds a b = true ∨ second.holds a b = true) :
    Certified x relation y ↔ Certified x first y ∨ Certified x second y := by
  cases left : read x.name with
  | none => simp [certified_iff_evaluate, Relation.evaluate_of_symbol (.inl left)]
  | some a =>
      cases right : read y.name with
      | none => simp [certified_iff_evaluate, Relation.evaluate_of_symbol (.inr right)]
      | some b =>
          simp only [certified_iff_holds left right]
          exact allows a b

theorem certified_compose {first second third : Relation}
    (composed : first.compose second = some third) (isFirst : Certified x first y)
    (isSecond : Certified y second z) : Certified x third z := by
  obtain ⟨a, b, ofX, ofY, firstHolds⟩ := numerals_of_certified isFirst
  obtain ⟨b', c, ofY', ofZ, secondHolds⟩ := numerals_of_certified isSecond
  cases ofY.symm.trans ofY'
  exact (certified_iff_holds ofX ofZ).mpr (Relation.holds_compose composed firstHolds secondHolds)

theorem certified_congr (equal : Certified x .equal y) (relation : Relation) (z : Object) :
    (Certified x relation z ↔ Certified y relation z) ∧
      (Certified z relation x ↔ Certified z relation y) := by
  have sameValue := read_eq_of_certified equal
  simp only [certified_iff_evaluate, Relation.evaluate, sameValue, and_self]

theorem compare_iff_certified : relation.compare x y = true ↔ Certified x relation y := by
  rw [certified_iff_evaluate, Relation.compare]
  cases relation.evaluate x y <;> simp

/-- Between numerals, the provable orderings are those of their values, which form a total
order. Other orderings are refused, and so is every ordering of anything else. -/
theorem orderings_lawful (x y z : Object) :
    (∀ {a b : Rat}, read x.name = some a → read y.name = some b →
      (∃! relation, relation ∈ [Relation.less, .equal, .greater] ∧ Certified x relation y) ∧
      (Certified x .less y ↔ a < b) ∧ (Certified x .equal y ↔ a = b) ∧
      (Certified x .greater y ↔ b < a) ∧
      ∀ relation, ¬Certified x relation y → ∀ store,
        outcome (proveOrdering (.ordered x relation y)) store =
          (.error (.relationFalse (.ordered x relation y)), store)) ∧
    (Certified x .atMost y ↔ Certified x .less y ∨ Certified x .equal y) ∧
    (Certified x .atLeast y ↔ Certified x .greater y ∨ Certified x .equal y) ∧
    (∀ {first second third : Relation}, first.compose second = some third →
      Certified x first y → Certified y second z → Certified x third z) ∧
    (Certified x .equal y → ∀ relation, (Certified x relation z ↔ Certified y relation z) ∧
      (Certified z relation x ↔ Certified z relation y)) ∧
    (read x.name = none ∨ read y.name = none → ∀ relation store,
      outcome (proveOrdering (.ordered x relation y)) store =
        (.error (.notComparable x y), store)) ∧
    ∀ relation : Relation, relation.compare x y = true ↔ Certified x relation y := by
  refine ⟨fun {a b} left right => ?_, certified_or_iff fun _ _ => Relation.holds_atMost_iff,
    certified_or_iff fun _ _ => Relation.holds_atLeast_iff, certified_compose,
    fun equal relation => certified_congr equal relation z, fun isSymbolic relation store => ?_,
    fun relation => compare_iff_certified⟩
  · simp only [certified_iff_holds left right]
    refine ⟨Relation.existsUnique_holds a b, decide_eq_true_iff, decide_eq_true_iff,
      decide_eq_true_iff, fun relation notHolds store => ?_⟩
    refine outcome_proveOrdering_of_false ?_ store
    rw [Relation.evaluate_of_numerals left right, Bool.eq_false_iff.mpr notHolds]
  · exact outcome_proveOrdering_of_none (Relation.evaluate_of_symbol isSymbolic relation) store

/-! The sample has `1/2` in two notations, `3/4` with signs, and a symbol. -/

namespace Sample

def half : Object := ⟨1, "1/2", none, []⟩

def decimal : Object := ⟨2, "0.50", none, []⟩

def quarters : Object := ⟨3, "-3/-4", none, []⟩

def unknown : Object := ⟨4, "t", none, []⟩

end Sample

open Sample in
theorem orderings_lawful_halves :
    Certified half .equal decimal ∧ Certified decimal .less quarters ∧
      Certified half .less quarters ∧ Certified quarters .atLeast decimal ∧
      outcome (proveOrdering (.ordered half .greater decimal)) .empty =
        (.error (.relationFalse (.ordered half .greater decimal)), .empty) ∧
      outcome (proveOrdering (.ordered half .atMost unknown)) .empty =
        (.error (.notComparable half unknown), .empty) := by
  have isHalf : read half.name = some (1 / 2) := by decide +kernel
  have isDecimal : read decimal.name = some (1 / 2) := by decide +kernel
  have isQuarters : read quarters.name = some (3 / 4) := by decide +kernel
  obtain ⟨ofHalves, _, _, composed, _⟩ := orderings_lawful half decimal quarters
  obtain ⟨_, _, isEqual, isGreater, refused⟩ := ofHalves isHalf isDecimal
  obtain ⟨_, isLess, _⟩ := (orderings_lawful decimal quarters half).1 isDecimal isQuarters
  obtain ⟨ofQuarters, _, weak, _⟩ := orderings_lawful quarters decimal half
  obtain ⟨_, _, _, isMore, _⟩ := ofQuarters isQuarters isDecimal
  obtain ⟨_, _, _, _, _, incomparable, _⟩ := orderings_lawful half unknown half
  have less : (1 / 2 : Rat) < 3 / 4 := by decide +kernel
  refine ⟨isEqual.mpr rfl, isLess.mpr less, composed rfl (isEqual.mpr rfl) (isLess.mpr less),
    weak.mpr (.inl (isMore.mpr less)), refused .greater ?_ .empty,
    incomparable (.inr (by decide +kernel)) .atMost .empty⟩
  exact mt isGreater.mp (by decide +kernel)

end Kernel

end Deduction
