import Deduction.Enumeration
import Mathlib.Data.List.Forall2

/-! # Combinations

To choose one object of each column is to write a number in digits, where each column is a
digit and the last one is worth least. So the combination at a position is found by division
with remainder. -/

namespace Deduction

/-- The number of ways to choose one object of each column. -/
def volume : List (List Object) → Nat
  | [] => 1
  | column :: columns => column.length * volume columns

/-- What is chosen at a position if the last column varies fastest. -/
def chosenAt : List (List Object) → Nat → Option (List Object)
  | [], 0 => some []
  | [], _ + 1 => none
  | column :: columns, position => do
      let x ← column[position / volume columns]?
      let others ← chosenAt columns (position % volume columns)
      return x :: others

theorem length_combinations (columns : List (List Object)) :
    (combinations columns).length = volume columns := by
  induction columns with
  | nil => rfl
  | cons column columns induction => simp [combinations_cons, volume, induction]

theorem getElem?_flatMap_cons (heads : List Object) (tails : List (List Object))
    (position : Nat) :
    (heads.flatMap fun x => tails.map (x :: ·))[position]? =
      heads[position / tails.length]?.bind fun x =>
        tails[position % tails.length]?.map (x :: ·) := by
  induction heads generalizing position with
  | nil => simp
  | cons head heads induction =>
      rw [List.flatMap_cons, List.getElem?_append, List.length_map]
      by_cases isFirst : position < tails.length
      · rw [if_pos isFirst, Nat.div_eq_of_lt isFirst, Nat.mod_eq_of_lt isFirst]
        simp
      · rw [if_neg isFirst, induction]
        rcases Nat.eq_zero_or_pos tails.length with isZero | positive
        · simp [List.length_eq_zero_iff.mp isZero]
        · have quotient : position / tails.length = (position - tails.length) / tails.length + 1 :=
            Nat.div_eq_sub_div positive (by omega)
          have remainder : position % tails.length = (position - tails.length) % tails.length :=
            Nat.mod_eq_sub_mod (by omega)
          rw [quotient, remainder, List.getElem?_cons_succ]

theorem getElem?_combinations (columns : List (List Object)) (position : Nat) :
    (combinations columns)[position]? = chosenAt columns position := by
  induction columns generalizing position with
  | nil => cases position <;> rfl
  | cons column columns induction =>
      rw [combinations_cons, getElem?_flatMap_cons, length_combinations, chosenAt, induction]
      cases column[position / volume columns]? <;>
        cases chosenAt columns (position % volume columns) <;> rfl

theorem mem_combinations_iff {columns : List (List Object)} {components : List Object} :
    components ∈ combinations columns ↔ List.Forall₂ (· ∈ ·) components columns := by
  induction columns generalizing components with
  | nil => simp [combinations_nil]
  | cons column columns induction =>
      cases components with
      | nil => simp [combinations_cons]
      | cons x components => simp [combinations_cons, induction]

/-- Combinations of columns without repetition do not repeat. -/
theorem pairwise_combinations {same : Object → Object → Prop} {columns : List (List Object)}
    (distinct : ∀ column ∈ columns, column.Pairwise fun x y => ¬same x y) :
    (combinations columns).Pairwise fun left right => ¬List.Forall₂ same left right := by
  induction columns with
  | nil => simp [combinations_nil]
  | cons column columns induction =>
      rw [List.forall_mem_cons] at distinct
      rw [combinations_cons, List.pairwise_flatMap]
      constructor
      · intro x _
        rw [List.pairwise_map]
        apply (induction distinct.2).imp
        intro left right differ isSame
        exact differ (List.forall₂_cons.mp isSame).2
      · apply distinct.1.imp
        intro x y differ left ofX right ofY isSame
        rcases List.mem_map.mp ofX with ⟨_, _, rfl⟩
        rcases List.mem_map.mp ofY with ⟨_, _, rfl⟩
        exact differ (List.forall₂_cons.mp isSame).1

end Deduction
