import Deduction.Proofs.Opening

/-! # Pulls that never return

Opening an enumeration only asks that the factors of a product other than the first are
finite. If one of them is empty and the first factor goes on for ever, then a pull passes
over one head after the other and finds neither a tuple nor the end. In every other case a
pull returns. -/

namespace Deduction

/-- Holds if first factors lead to a product of an endless set with nothing. -/
def Store.isBarren (store : Store) : Collection → Bool
  | .product _ _ (first :: rest) =>
      store.isBarren first || (first.isEndless && store.sizeAll rest == 0)
  | _ => false

namespace Store.Opens

variable {store : Store} {set : Collection} {cursor : Cursor}

theorem isProductive_iff (opens : store.Opens set cursor) :
    cursor.IsProductive ↔ store.isBarren set = false := by
  induction set, cursor, opens using Opens.induction with
  | plain id name _ => simp [Cursor.IsProductive, isBarren]
  | naturals id _ => simp [Cursor.IsProductive, isBarren]
  | product id name first rest heads columns _ opensFirst finite enumerates induction =>
      have noTails : combinations columns = [] ↔ store.sizeAll rest = 0 := by
        rw [← List.length_eq_zero_iff, Enumerates.length_combinations finite enumerates]
      simp only [Cursor.IsProductive, isBarren, induction, noTails, opensFirst.isBounded_iff,
        Bool.or_eq_false_iff, Bool.and_eq_false_iff, beq_eq_false_iff_ne]
      tauto

theorem stalls (opens : store.Opens set cursor) (barren : store.isBarren set = true) :
    cursor.Stalls := by
  induction set, cursor, opens using Opens.induction with
  | plain id name _ => simp [isBarren] at barren
  | naturals id _ => simp [isBarren] at barren
  | product id name first rest heads columns _ opensFirst finite enumerates induction =>
      simp only [isBarren, Bool.or_eq_true, Bool.and_eq_true, beq_iff_eq] at barren
      refine ⟨rfl, barren.imp induction ?_⟩
      rintro ⟨endless, isZero⟩
      rw [← Enumerates.length_combinations finite enumerates, List.length_eq_zero_iff] at isZero
      exact ⟨isZero, by simp [opensFirst.isBounded_iff, endless]⟩

end Store.Opens

/-- At every point of an enumeration a pull gives an object or finds the end, unless the set
is barren. Then no number of steps is enough even for the first pull. -/
theorem Kernel.pull_returns_unless_isBarren {store after : Store} {set : Collection}
    {cursor : Cursor} (ok : outcome (enumerate set) store = (.ok cursor, after)) :
    (store.isBarren set = false → ∀ log rest, cursor.Gives log rest → ∀ created,
      (∃ x next later, rest.pull created = (.item x next, later)) ∨
        ∃ later, rest.pull created = (.finished, later)) ∧
    (store.isBarren set = true → ∀ steps created,
      (Cursor.pullWithin steps cursor created).1 = .stalled) := by
  have opens : store.Opens set cursor := ⟨store.created, after, ok⟩
  constructor
  · intro notBarren log rest gives created
    have productive := gives.isProductive_iff.mpr (opens.isProductive_iff.mpr notBarren)
    rcases productive.exists_pulls created with ⟨⟨x, next⟩ | _ | _, later, pulls⟩
    · exact .inl ⟨x, next, later, productive.pull_eq pulls⟩
    · exact .inr ⟨later, productive.pull_eq pulls⟩
    · exact absurd rfl pulls.returns
  · intro barren steps created
    exact (opens.stalls barren).pullWithin steps created

/-! In the sample the naturals are combined with a set of one member and with an empty set. -/

namespace Run.Sample

def inhabited : Collection := .plain 4 "A"

def uninhabited : Collection := .plain 5 "E"

def inhabitant : Object := ⟨1, "a", none, []⟩

def fertile : Collection := .product 6 "P" [lowest, inhabited]

def barren : Collection := .product 7 "B" [lowest, uninhabited]

def settled : Run :=
  (((counted.after (.plainSet "A")).after (.plainSet "E")).after (.object "a")).after
    (.insert inhabited inhabitant)

def multiplied : Run :=
  (settled.after (.productSet "P" [lowest, inhabited])).after
    (.productSet "B" [lowest, uninhabited])

theorem reachable_multiplied : multiplied.Reachable := by
  refine .after (.after (.after (.after (.after (.after reachable_counted ?_) ?_) ?_) ?_) ?_) ?_
  iterate 3 exact fun _ member => nomatch member
  · refine List.forall_mem_cons.mpr ⟨?_, List.forall_mem_singleton.mpr ?_⟩
    · exact .result (List.mem_of_getElem? (i := 2) rfl) List.mem_cons_self
    · exact .result (List.mem_of_getElem? (i := 0) rfl) List.mem_cons_self
  · refine List.forall_mem_cons.mpr ⟨?_, List.forall_mem_singleton.mpr ?_⟩
    · exact .result (List.mem_of_getElem? (i := 4) rfl) List.mem_cons_self
    · exact .result (List.mem_of_getElem? (i := 3) rfl) List.mem_cons_self
  · refine List.forall_mem_cons.mpr ⟨?_, List.forall_mem_singleton.mpr ?_⟩
    · exact .result (List.mem_of_getElem? (i := 5) rfl) List.mem_cons_self
    · exact .result (List.mem_of_getElem? (i := 3) rfl) List.mem_cons_self

end Run.Sample

open Run.Sample in
theorem Kernel.pull_returns_fertile :
    multiplied.Reachable ∧ multiplied.store.isBarren fertile = false ∧
      ∃ cursor after, outcome (enumerate fertile) multiplied.store = (.ok cursor, after) ∧
        ∀ log rest, cursor.Gives log rest → ∀ created,
          (∃ x next later, rest.pull created = (.item x next, later)) ∨
            ∃ later, rest.pull created = (.finished, later) := by
  have opened : outcome (enumerate fertile) multiplied.store =
      (.ok (.tuples (.counting 1 1) [[inhabitant]] []), multiplied.store) := rfl
  exact ⟨reachable_multiplied, rfl, _, _, opened, (pull_returns_unless_isBarren opened).1 rfl⟩

open Run.Sample in
/-- The product of the naturals with nothing can be enumerated, but no pull returns. -/
theorem Kernel.pull_stalls_barren :
    multiplied.Reachable ∧ barren.hasFactors = true ∧
      ∃ cursor after, outcome (enumerate barren) multiplied.store = (.ok cursor, after) ∧
        ∀ steps created, (Cursor.pullWithin steps cursor created).1 = .stalled :=
  ⟨reachable_multiplied, rfl, _, _, rfl, Cursor.Stalls.pullWithin ⟨rfl, .inr ⟨rfl, id⟩⟩⟩

end Deduction
