import Deduction.Proofs.Membership

/-! # Inclusion

A set is taken to include another one if the two are the same or if the first is a number
set that was formed on the second. The test compares numbers of sets only. Since no two
sets of a run have the same number, it orders them, and whatever lies in the included set
lies in the including one, however it came to lie there. -/

namespace Deduction

/-! ## Chains of number sets -/

namespace NumberSet

variable {set level : NumberSet}

theorem chain_subset_of_mem (isLevel : level ∈ set.chain) : level.chain ⊆ set.chain := by
  cases set <;> simp only [chain, List.mem_cons, List.not_mem_nil, or_false] at isLevel <;>
    rcases isLevel with rfl | rfl | rfl <;> simp [chain]

/-- Each level of a chain has a kind of its own. -/
theorem eq_of_mem_chain_of_le (isLevel : level ∈ set.chain) (le : set.kind ≤ level.kind) :
    level = set := by
  rw [set.chain_eq_cons] at isLevel
  rcases List.mem_cons.mp isLevel with isSet | isSmaller
  · exact isSet
  · cases set <;> simp only [chain, List.tail_cons, List.mem_cons, List.not_mem_nil,
      or_false] at isSmaller <;> rcases isSmaller with rfl | rfl <;>
      exact absurd (Nat.ble_eq_true_of_le le) Bool.false_ne_true

end NumberSet

theorem Store.containsNumber_of_mem_chain {store : Store} {set level : NumberSet} {x : Object}
    (isLevel : level ∈ set.chain) (contains : store.containsNumber level x = true) :
    store.containsNumber set x = true := by
  rcases List.any_eq_true.mp contains with ⟨lower, isLower, atLower⟩
  exact List.any_eq_true.mpr ⟨lower, NumberSet.chain_subset_of_mem isLevel isLower, atLower⟩

/-! ## The sets of a run -/

namespace Run

variable {run : Run} {a b : Collection}

/-- Among the sets of a run, the numbers that the test compares stand for the sets. -/
theorem Registered.includes_iff (registered : run.Registered) (isFormed : a ∈ run.formed)
    (isFormed' : b ∈ run.formed) :
    a.includes b = true ↔
      a = b ∨ ∃ set level, a = .number set ∧ b = .number level ∧ level ∈ set.chain := by
  constructor
  · intro includes
    rcases Bool.or_eq_true_iff.mp includes with same | below
    · exact .inl (registered.eq_of_id isFormed isFormed' (eq_of_beq same))
    · cases a with
      | number set =>
          rcases List.any_eq_true.mp below with ⟨level, isLevel, same⟩
          have isKnown := registered.mem_formed_of_chain isFormed isLevel
          have isSmaller := registered.eq_of_id isFormed' isKnown (eq_of_beq same).symm
          exact .inr ⟨set, level, rfl, isSmaller, isLevel⟩
      | _ => cases below
  · rintro (rfl | ⟨set, level, rfl, rfl, isLevel⟩)
    · simp [Collection.includes, Collection.same]
    · apply Bool.or_eq_true_iff.mpr
      exact .inr (List.any_eq_true.mpr ⟨level, isLevel, beq_self_eq_true level.id⟩)

/-- Inclusion is an order on the sets of a run, and it is sound for membership. -/
theorem Reachable.includes_semantic (reachable : run.Reachable) :
    (∀ a ∈ run.formed, ∀ b ∈ run.formed, a.includes b = true →
      ∀ x, run.store.contains b x = true → run.store.contains a x = true) ∧
    (∀ a ∈ run.formed, a.includes a = true) ∧
    (∀ a ∈ run.formed, ∀ b ∈ run.formed, ∀ c ∈ run.formed,
      a.includes b = true → b.includes c = true → a.includes c = true) ∧
    ∀ a ∈ run.formed, ∀ b ∈ run.formed,
      a.includes b = true → b.includes a = true → a.same b = true := by
  have registered := reachable.registered
  refine ⟨?_, ?_, ?_, ?_⟩
  · intro a isFormed b isFormed' includes x contains
    rcases (registered.includes_iff isFormed isFormed').mp includes with
      rfl | ⟨set, level, rfl, rfl, isLevel⟩
    · exact contains
    · rw [Store.contains] at contains ⊢
      exact Store.containsNumber_of_mem_chain isLevel contains
  · intro a isFormed
    exact (registered.includes_iff isFormed isFormed).mpr (.inl rfl)
  · intro a ofA b ofB c ofC first second
    rcases (registered.includes_iff ofA ofB).mp first with rfl | ⟨set, level, rfl, rfl, isLevel⟩
    · exact second
    · rcases (registered.includes_iff ofB ofC).mp second with
        rfl | ⟨_, lower, isNumber, rfl, isLower⟩
      · exact first
      · cases isNumber
        exact (registered.includes_iff ofA ofC).mpr
          (.inr ⟨set, lower, rfl, rfl, NumberSet.chain_subset_of_mem isLevel isLower⟩)
  · intro a ofA b ofB first second
    rcases (registered.includes_iff ofA ofB).mp first with rfl | ⟨set, level, rfl, rfl, isLevel⟩
    · exact beq_self_eq_true a.id
    · rcases (registered.includes_iff ofB ofA).mp second with
        isSame | ⟨_, _, isLarger, isSmaller, isLevel'⟩
      · exact beq_iff_eq.mpr (congrArg Collection.id isSame).symm
      · cases isLarger
        cases isSmaller
        have isSame := NumberSet.eq_of_mem_chain_of_le isLevel
          (NumberSet.kind_le_of_mem_chain isLevel')
        exact beq_iff_eq.mpr (congrArg NumberSet.id isSame).symm

/-! The sample has number sets twice. An object is inserted into the first naturals, and the
second rationals cease to exist. -/

namespace Sample

def otherHighest : Collection := .number (.reals 6 5 4)

def stray : Object := ⟨1, "w", none, []⟩

def inserted : Run :=
  ((counted.after .numberSets).after (.object "w")).after (.insert lowest stray)

def thinned : Run :=
  inserted.release fun id => id != 5

theorem reachable_thinned : thinned.Reachable := by
  apply Reachable.release
  refine .after (.after (.after reachable_counted ?_) ?_) ?_
  · exact fun _ member => nomatch member
  · exact fun _ member => nomatch member
  · refine List.forall_mem_cons.mpr ⟨?_, List.forall_mem_singleton.mpr ?_⟩
    · exact .result (List.mem_of_getElem? (i := 2) rfl) List.mem_cons_self
    · exact .result (List.mem_of_getElem? (i := 0) rfl) List.mem_cons_self

end Sample

open Sample in
theorem Reachable.includes_semantic_thinned :
    thinned.Reachable ∧ highest.includes middle = true ∧ middle.includes lowest = true ∧
      highest.includes lowest = true ∧ otherHighest.includes lowest = false ∧
      thinned.store.contains lowest stray = true ∧ thinned.store.contains highest stray = true ∧
      thinned.store.contains otherHighest stray = false := by
  have ofLowest : lowest ∈ thinned.formed := List.mem_of_getElem? (i := 3) rfl
  have ofMiddle : middle ∈ thinned.formed := List.mem_of_getElem? (i := 4) rfl
  have ofHighest : highest ∈ thinned.formed := List.mem_of_getElem? (i := 5) rfl
  rcases reachable_thinned.includes_semantic with ⟨sound, _, transitive, _⟩
  have includes := transitive _ ofHighest _ ofMiddle _ ofLowest rfl rfl
  exact ⟨reachable_thinned, rfl, rfl, includes, rfl, rfl,
    sound _ ofHighest _ ofLowest includes stray rfl, by decide +kernel⟩

end Run

end Deduction
