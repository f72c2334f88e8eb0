import Deduction.Proofs.Combinations
import Deduction.Proofs.Pulling
import Deduction.Proofs.Rules

/-! # Opening an enumeration

When the enumeration of a set is opened, what the set is decides which cursor results, and
only the count of objects advances. The enumerations of the sets of one store are described
by two inductions. The first follows the first factors of products down to what is pulled
from; the second follows all factors of a finite set. -/

namespace Deduction

/-! ## Sets -/

namespace Collection

mutual

/-- Holds if every product that the set is built of has a factor. -/
def hasFactors : Collection → Bool
  | plain _ _ => true
  | number _ => true
  | product _ _ factors => !factors.isEmpty && allHaveFactors factors
  | function _ _ _ _ _ => true

def allHaveFactors : List Collection → Bool
  | [] => true
  | head :: tail => head.hasFactors && allHaveFactors tail

end

/-- Holds if first factors lead to a number set. -/
def isEndless : Collection → Bool
  | plain _ _ => false
  | number _ => true
  | product _ _ [] => false
  | product _ _ (first :: _) => first.isEndless
  | function _ _ _ _ _ => false

theorem isEndless_of_isFinite : (set : Collection) → set.isFinite = true → set.isEndless = false
  | plain _ _, _ => by rw [isEndless]
  | number _, finite => by simp [isFinite] at finite
  | product _ _ [], _ => by rw [isEndless]
  | product _ _ (first :: rest), finite => by
      simp only [isFinite, allFinite, Bool.and_eq_true] at finite
      rw [isEndless]
      exact isEndless_of_isFinite first finite.1
  | function _ _ _ _ _, _ => by rw [isEndless]

end Collection

namespace Store

mutual

/-- How many elements a finite set has. -/
def size (store : Store) : Collection → Nat
  | .plain id _ => (store.members id).length
  | .number _ => 0
  | .product _ _ factors => store.sizeAll factors
  | .function _ _ _ _ _ => 0

def sizeAll (store : Store) : List Collection → Nat
  | [] => 1
  | head :: tail => store.size head * store.sizeAll tail

end

end Store

/-! ## Tuples -/

/-- The objects are tuples, one for each combination and in the same order. -/
structure AreTuples (columns : List (List Object)) (objects : List Object) : Prop where
  components : objects.map Object.components = combinations columns
  spelled : ∀ x ∈ objects, x.name = tupleName x.components ∧ x.owner = none

theorem AreTuples.chosen {columns : List (List Object)} {objects : List Object}
    (areTuples : AreTuples columns objects) {x : Object} (member : x ∈ objects) :
    List.Forall₂ (· ∈ ·) x.components columns := by
  rw [← mem_combinations_iff, ← areTuples.components]
  exact List.mem_map_of_mem member

/-! ## Cursors of a set -/

namespace Kernel

variable {store after : Store} {set : Collection} {cursor : Cursor}

inductive Opening (store : Store) : Collection → Cursor → Store → Prop
  | plain {id : SetId} {name : String} :
      Opening store (.plain id name) (.listed (store.members id)) store
  | naturals {id : SetId} : Opening store (.number (.naturals id)) (.counting id 1) store
  | product {id : SetId} {name : String} {first : Collection} {rest : List Collection}
      {columns : List (List Object)} {middle after : Store} {heads : Cursor} :
      Collection.allFinite rest = true →
      outcome (enumerateAll rest) store = (.ok columns, middle) →
      outcome (enumerate first) middle = (.ok heads, after) →
      Opening store (.product id name (first :: rest))
        (.tuples heads (combinations columns) []) after

theorem opening_of_enumerate (ok : outcome (enumerate set) store = (.ok cursor, after)) :
    Opening store set cursor after := by
  unfold enumerate at ok
  split at ok
  · cases ok
    exact .plain
  · cases ok
    exact .naturals
  · cases ok
  · cases ok
  · split at ok
    · rename_i finite
      rcases ok_of_bind ok with ⟨columns, middle, okRest, ok⟩
      rcases ok_of_bind ok with ⟨heads, later, okFirst, returned⟩
      cases returned
      exact .product finite okRest okFirst
    · cases ok
  · cases ok

theorem ok_of_enumerateAll_cons {sets : List Collection} {columns : List (List Object)}
    (ok : outcome (enumerateAll (set :: sets)) store = (.ok columns, after)) :
    ∃ cursor middle others, outcome (enumerate set) store = (.ok cursor, middle) ∧
      outcome (enumerateAll sets) { middle with created := (cursor.drain middle.created).2 } =
        (.ok others, after) ∧
      columns = (cursor.drain middle.created).1 :: others := by
  rw [enumerateAll] at ok
  rcases ok_of_bind ok with ⟨cursor, middle, okSet, ok⟩
  rcases ok_of_bind ok with ⟨column, later, drained, ok⟩
  cases drained
  rcases ok_of_bind ok with ⟨others, last, okSets, returned⟩
  cases returned
  exact ⟨cursor, middle, others, okSet, okSets, rfl⟩

mutual

theorem advances_of_enumerate : (set : Collection) → {store after : Store} → {cursor : Cursor} →
    outcome (enumerate set) store = (.ok cursor, after) →
    ∃ created, after = { store with created }
  | .plain _ _, store, _, _, ok => by
      cases opening_of_enumerate ok
      exact ⟨store.created, rfl⟩
  | .number _, store, _, _, ok => by
      cases opening_of_enumerate ok
      exact ⟨store.created, rfl⟩
  | .product _ _ [], _, _, _, ok => by cases opening_of_enumerate ok
  | .product _ _ (first :: rest), _, _, _, ok => by
      cases opening_of_enumerate ok with
      | product _ okRest okFirst =>
          rcases advances_of_enumerateAll rest okRest with ⟨_, rfl⟩
          rcases advances_of_enumerate first okFirst with ⟨created, rfl⟩
          exact ⟨created, rfl⟩
  | .function _ _ _ _ _, _, _, _, ok => by cases opening_of_enumerate ok

theorem advances_of_enumerateAll : (sets : List Collection) → {store after : Store} →
    {columns : List (List Object)} → outcome (enumerateAll sets) store = (.ok columns, after) →
    ∃ created, after = { store with created }
  | [], store, _, _, ok => by
      rw [enumerateAll] at ok
      cases ok
      exact ⟨store.created, rfl⟩
  | set :: sets, _, _, _, ok => by
      rcases ok_of_enumerateAll_cons ok with ⟨_, _, _, okSet, okSets, _⟩
      rcases advances_of_enumerate set okSet with ⟨_, rfl⟩
      rcases advances_of_enumerateAll sets okSets with ⟨created, rfl⟩
      exact ⟨created, rfl⟩

end

mutual

/-- A finite set is enumerated unless some product in it has no factor. -/
theorem exists_enumerate : (set : Collection) → set.isFinite = true → set.hasFactors = true →
    (store : Store) → ∃ cursor after, outcome (enumerate set) store = (.ok cursor, after)
  | .plain _ _, _, _, _ => by
      rw [enumerate]
      exact ⟨_, _, rfl⟩
  | .number _, finite, _, _ => by simp [Collection.isFinite] at finite
  | .product _ _ [], _, factors, _ => by simp [Collection.hasFactors] at factors
  | .product _ _ (first :: rest), finite, factors, store => by
      simp only [Collection.isFinite, Collection.allFinite, Collection.hasFactors,
        Collection.allHaveFactors, Bool.and_eq_true] at finite factors
      rcases exists_enumerateAll rest finite.2 factors.2.2 store with ⟨columns, middle, okRest⟩
      rcases exists_enumerate first finite.1 factors.2.1 middle with ⟨heads, after, okFirst⟩
      rw [enumerate, if_pos finite.2, outcome_bind_of_ok okRest, outcome_bind_of_ok okFirst]
      exact ⟨_, _, rfl⟩
  | .function _ _ _ _ _, finite, _, _ => by simp [Collection.isFinite] at finite

theorem exists_enumerateAll : (sets : List Collection) → Collection.allFinite sets = true →
    Collection.allHaveFactors sets = true → (store : Store) →
    ∃ columns after, outcome (enumerateAll sets) store = (.ok columns, after)
  | [], _, _, _ => by
      rw [enumerateAll]
      exact ⟨_, _, rfl⟩
  | set :: sets, finite, factors, store => by
      simp only [Collection.allFinite, Collection.allHaveFactors, Bool.and_eq_true]
        at finite factors
      rcases exists_enumerate set finite.1 factors.1 store with ⟨cursor, middle, okSet⟩
      rcases exists_enumerateAll sets finite.2 factors.2
        { middle with created := (cursor.drain middle.created).2 } with ⟨columns, after, okSets⟩
      have drained : outcome (drain cursor) middle = (.ok (cursor.drain middle.created).1,
          { middle with created := (cursor.drain middle.created).2 }) := rfl
      rw [enumerateAll, outcome_bind_of_ok okSet, outcome_bind_of_ok drained,
        outcome_bind_of_ok okSets]
      exact ⟨_, _, rfl⟩

end

end Kernel

namespace Store

variable {store : Store} {set first : Collection} {rest factors : List Collection}
  {cursor heads : Cursor} {objects : List Object} {columns : List (List Object)}

/-- Opening the enumeration of the set results in this cursor, for some count of objects. -/
def Opens (store : Store) (set : Collection) (cursor : Cursor) : Prop :=
  ∃ created after, Kernel.outcome (Kernel.enumerate set) { store with created } =
    (.ok cursor, after)

/-- The set can be enumerated as these objects. -/
def Enumerates (store : Store) (set : Collection) (objects : List Object) : Prop :=
  ∃ cursor, store.Opens set cursor ∧ cursor.Yields objects

theorem isBounded_iff_of_enumerate : (set : Collection) → {store after : Store} →
    {cursor : Cursor} → Kernel.outcome (Kernel.enumerate set) store = (.ok cursor, after) →
    (cursor.IsBounded ↔ set.isEndless = false)
  | .plain _ _, _, _, _, ok => by
      cases Kernel.opening_of_enumerate ok
      simp [Cursor.IsBounded, Collection.isEndless]
  | .number _, _, _, _, ok => by
      cases Kernel.opening_of_enumerate ok
      simp [Cursor.IsBounded, Collection.isEndless]
  | .product _ _ [], _, _, _, ok => by cases Kernel.opening_of_enumerate ok
  | .product _ _ (first :: _), _, _, _, ok => by
      cases Kernel.opening_of_enumerate ok with
      | product _ _ okFirst =>
          rw [Cursor.IsBounded, Collection.isEndless]
          exact isBounded_iff_of_enumerate first okFirst
  | .function _ _ _ _ _, _, _, _, ok => by cases Kernel.opening_of_enumerate ok

theorem Opens.isBounded_iff (opens : store.Opens set cursor) :
    cursor.IsBounded ↔ set.isEndless = false := by
  rcases opens with ⟨_, _, ok⟩
  exact isBounded_iff_of_enumerate set ok

theorem Opens.isBounded (opens : store.Opens set cursor) (finite : set.isFinite = true) :
    cursor.IsBounded :=
  opens.isBounded_iff.mpr (set.isEndless_of_isFinite finite)

theorem enumerates_of_enumerateAll {after : Store} {created : Nat} {sets : List Collection}
    (finite : Collection.allFinite sets = true)
    (ok : Kernel.outcome (Kernel.enumerateAll sets) { store with created } =
      (.ok columns, after)) :
    List.Forall₂ store.Enumerates sets columns := by
  induction sets generalizing created columns with
  | nil =>
      rw [Kernel.enumerateAll] at ok
      cases ok
      exact .nil
  | cons set sets induction =>
      simp only [Collection.allFinite, Bool.and_eq_true] at finite
      rcases Kernel.ok_of_enumerateAll_cons ok with ⟨cursor, middle, others, okSet, okSets, rfl⟩
      have opens : store.Opens set cursor := ⟨created, middle, okSet⟩
      rcases Kernel.advances_of_enumerate set okSet with ⟨_, rfl⟩
      exact .cons ⟨cursor, opens, (opens.isBounded finite.1).yields_drain _⟩
        (induction finite.2 okSets)

theorem Opens.of_naturals {id : SetId} (opens : store.Opens (.number (.naturals id)) cursor) :
    cursor = .counting id 1 := by
  rcases opens with ⟨_, _, ok⟩
  cases Kernel.opening_of_enumerate ok
  rfl

theorem Opens.of_product {id : SetId} {name : String}
    (opens : store.Opens (.product id name (first :: rest)) cursor) :
    ∃ heads columns, store.Opens first heads ∧ Collection.allFinite rest = true ∧
      List.Forall₂ store.Enumerates rest columns ∧
      cursor = .tuples heads (combinations columns) [] := by
  rcases opens with ⟨_, _, ok⟩
  cases Kernel.opening_of_enumerate ok with
  | @product _ _ _ _ columns _ _ heads finite okRest okFirst =>
      have enumerates := enumerates_of_enumerateAll finite okRest
      rcases Kernel.advances_of_enumerateAll rest okRest with ⟨created, rfl⟩
      exact ⟨heads, columns, ⟨created, _, okFirst⟩, finite, enumerates, rfl⟩

/-- A product is pulled from its first factor, and the others are known beforehand. -/
theorem Opens.induction {motive : (set : Collection) → (cursor : Cursor) →
      store.Opens set cursor → Prop}
    (plain : ∀ id name opens, motive (.plain id name) (.listed (store.members id)) opens)
    (naturals : ∀ id opens, motive (.number (.naturals id)) (.counting id 1) opens)
    (product : ∀ id name first rest heads columns opens (opensFirst : store.Opens first heads),
      Collection.allFinite rest = true → List.Forall₂ store.Enumerates rest columns →
      motive first heads opensFirst →
      motive (.product id name (first :: rest)) (.tuples heads (combinations columns) []) opens) :
    (set : Collection) → (cursor : Cursor) → (opens : store.Opens set cursor) →
      motive set cursor opens
  | .plain _ _, _, opens => by
      rcases opens with ⟨_, _, ok⟩
      cases Kernel.opening_of_enumerate ok
      exact plain _ _ _
  | .number _, _, opens => by
      rcases opens with ⟨_, _, ok⟩
      cases Kernel.opening_of_enumerate ok
      exact naturals _ _
  | .product _ _ [], _, opens => by
      rcases opens with ⟨_, _, ok⟩
      cases Kernel.opening_of_enumerate ok
  | .product _ _ (first :: _), _, opens => by
      rcases opens.of_product with ⟨heads, columns, opensFirst, finite, enumerates, rfl⟩
      exact product _ _ _ _ _ _ _ opensFirst finite enumerates
        (induction plain naturals product first heads opensFirst)
  | .function _ _ _ _ _, _, opens => by
      rcases opens with ⟨_, _, ok⟩
      cases Kernel.opening_of_enumerate ok

/-! ## Finite sets -/

theorem Enumerates.of_plain {id : SetId} {name : String}
    (enumerates : store.Enumerates (.plain id name) objects) : objects = store.members id := by
  rcases enumerates with ⟨cursor, ⟨_, _, ok⟩, yields⟩
  cases Kernel.opening_of_enumerate ok
  exact yields.of_listed

theorem Enumerates.of_product {id : SetId} {name : String}
    (finite : Collection.allFinite factors = true)
    (enumerates : store.Enumerates (.product id name factors) objects) :
    factors ≠ [] ∧
      ∃ columns, List.Forall₂ store.Enumerates factors columns ∧ AreTuples columns objects := by
  rcases enumerates with ⟨cursor, opens, yields⟩
  cases factors with
  | nil =>
      rcases opens with ⟨_, _, ok⟩
      cases Kernel.opening_of_enumerate ok
  | cons first rest =>
      rw [Collection.allFinite, Bool.and_eq_true] at finite
      rcases opens.of_product with ⟨heads, columns, opensFirst, _, enumeratesRest, rfl⟩
      rcases yields.of_tuples (opensFirst.isBounded finite.1) with
        ⟨headObjects, yieldsHeads, isProduct, spelled⟩
      rw [← combinations_cons] at isProduct
      exact ⟨by simp, headObjects :: columns,
        .cons ⟨heads, opensFirst, yieldsHeads⟩ enumeratesRest, isProduct, spelled⟩

mutual

/-- A finite set is enumerated by enumerations of its factors. -/
theorem Enumerates.induction {motive : Collection → List Object → Prop}
    (plain : ∀ id name, motive (.plain id name) (store.members id))
    (product : ∀ {id name factors columns objects}, factors ≠ [] →
      List.Forall₂ motive factors columns → AreTuples columns objects →
      motive (.product id name factors) objects) :
    (set : Collection) → {objects : List Object} → set.isFinite = true →
    store.Enumerates set objects → motive set objects
  | .plain id name, _, _, enumerates => by
      rw [enumerates.of_plain]
      exact plain id name
  | .number _, _, finite, _ => by simp [Collection.isFinite] at finite
  | .product _ _ factors, _, finite, enumerates => by
      rw [Collection.isFinite] at finite
      rcases enumerates.of_product finite with ⟨some, columns, enumeratesAll, areTuples⟩
      exact product some (Enumerates.inductionAll plain product factors finite enumeratesAll)
        areTuples
  | .function _ _ _ _ _, _, finite, _ => by simp [Collection.isFinite] at finite

theorem Enumerates.inductionAll {motive : Collection → List Object → Prop}
    (plain : ∀ id name, motive (.plain id name) (store.members id))
    (product : ∀ {id name factors columns objects}, factors ≠ [] →
      List.Forall₂ motive factors columns → AreTuples columns objects →
      motive (.product id name factors) objects) :
    (sets : List Collection) → {columns : List (List Object)} →
    Collection.allFinite sets = true → List.Forall₂ store.Enumerates sets columns →
    List.Forall₂ motive sets columns
  | [], _, _, .nil => .nil
  | set :: sets, _, finite, .cons enumerates enumeratesAll => by
      simp only [Collection.allFinite, Bool.and_eq_true] at finite
      exact .cons (Enumerates.induction plain product set finite.1 enumerates)
        (Enumerates.inductionAll plain product sets finite.2 enumeratesAll)

end

theorem length_combinations_of_sizes
    (sizes : List.Forall₂ (fun factor column => column.length = store.size factor)
      factors columns) :
    (combinations columns).length = store.sizeAll factors := by
  rw [Deduction.length_combinations]
  induction sizes with
  | nil => rfl
  | cons size _ induction => rw [volume, sizeAll, size, induction]

theorem Enumerates.length_combinations (finite : Collection.allFinite factors = true)
    (enumerates : List.Forall₂ store.Enumerates factors columns) :
    (combinations columns).length = store.sizeAll factors := by
  apply length_combinations_of_sizes
  apply Enumerates.inductionAll (motive := fun set objects => objects.length = store.size set) _ _
    factors finite enumerates
  · intro id name
    rw [size]
  · intro id name factors columns objects _ sizes areTuples
    rw [size, ← length_combinations_of_sizes sizes, ← areTuples.components, List.length_map]

end Store

end Deduction
