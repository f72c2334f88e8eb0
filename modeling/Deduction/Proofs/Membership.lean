import Deduction.Proofs.Equality
import Deduction.Proofs.Formation

/-! # Membership

Propositions are equal if they look the same. Whether an element lies in a set depends on
more: on which set of that name is meant, on whether the element belongs to a number set,
and on its components. Where these agree, equal memberships are judged alike. -/

namespace Deduction

open Session (Item)

/-! ## Standing -/

namespace Store

/-- Holds if the object belongs to a number set of at most the given kind. -/
def isNumberWithin (store : Store) (kind : NumberKind) (x : Object) : Bool :=
  (store.owner x).any fun owner => owner.numberKind.any fun other => other ≤ kind

mutual

/-- What equal objects have to share in order to lie in the set alike. -/
def SameStanding (store : Store) : Collection → Object → Object → Prop
  | .plain _ _, _, _ => True
  | .number set, x, y => store.isNumberWithin set.kind x = store.isNumberWithin set.kind y
  | .product _ _ factors, x, y => SameStandings store factors x.components y.components
  | .function _ _ _ _ _, _, _ => True

/-- There are equally many components, and those of the same factor are equal and have
the same standing in it. -/
def SameStandings (store : Store) : List Collection → List Object → List Object → Prop
  | factor :: factors, x :: xs, y :: ys =>
      x.key = y.key ∧ SameStanding store factor x y ∧ SameStandings store factors xs ys
  | _, xs, ys => xs.length = ys.length

end

theorem SameStandings.length {store : Store} {factors : List Collection} {xs ys : List Object}
    (standings : store.SameStandings factors xs ys) : xs.length = ys.length := by
  induction factors generalizing xs ys with
  | nil => simpa [SameStandings] using standings
  | cons factor factors induction =>
      cases xs with
      | nil => simpa [SameStandings] using standings
      | cons x xs =>
          cases ys with
          | nil => simp [SameStandings] at standings
          | cons y ys =>
              rw [SameStandings] at standings
              rw [List.length_cons, List.length_cons, induction standings.2.2]

theorem isNumberWithin_mono {store : Store} {x : Object} {kind kind' : NumberKind}
    (le : kind ≤ kind') (isNumber : store.isNumberWithin kind x = true) :
    store.isNumberWithin kind' x = true := by
  simp only [isNumberWithin, Option.any_eq_true_iff_get, decide_eq_true_eq] at isNumber ⊢
  obtain ⟨isOwned, isNumber, within⟩ := isNumber
  exact ⟨isOwned, isNumber, Nat.le_trans within le⟩

end Store

namespace NumberSet

theorem chain_eq_cons (set : NumberSet) : set.chain = set :: set.chain.tail := by
  cases set <;> rfl

theorem kind_le_of_mem_chain {set level : NumberSet} (isLevel : level ∈ set.chain) :
    level.kind ≤ set.kind := by
  cases set <;> simp only [chain, List.mem_cons, List.not_mem_nil, or_false] at isLevel <;>
    rcases isLevel with rfl | rfl | rfl <;> exact Nat.le_of_ble_eq_true rfl

end NumberSet

/-! ## Equal elements -/

namespace Object

variable {x y : Object}

theorem name_of_key (same : x.key = y.key) : x.name = y.name := by
  unfold key at same
  split at same <;> split at same <;> simp_all

theorem contains_of_key (same : x.key = y.key) (members : List Object) :
    members.contains x = members.contains y := by
  have alike : ∀ member : Object, (x == member) = (y == member) :=
    fun member => congrArg (fun key => decide (key = member.key)) same
  induction members with
  | nil => rfl
  | cons member members induction =>
      rw [List.contains_cons, List.contains_cons, alike, induction]

theorem isTuple_of_length (same : x.components.length = y.components.length) :
    x.isTuple = y.isTuple := by
  have sameEmpty : x.components = [] ↔ y.components = [] := by
    rw [← List.length_eq_zero_iff, same, List.length_eq_zero_iff]
  rw [isTuple, isTuple, Bool.eq_iff_iff]
  simp [sameEmpty]

end Object

namespace Run

variable {run : Run} {x y : Object}

/-- An object that belongs to a number set belongs to one of its kind. -/
theorem Registered.belongs_eq {set : NumberSet} (registered : run.Registered)
    (isFormed : .number set ∈ run.formed) (x : Object) :
    run.store.belongs set x = run.store.isNumberWithin set.kind x := by
  unfold Store.belongs Store.isNumberWithin
  cases isOwner : run.store.owner x with
  | none => rfl
  | some owner =>
      obtain ⟨id, _, isFound⟩ := Option.bind_eq_some_iff.mp isOwner
      have isKnown := registered.living owner (List.mem_of_find?_eq_some isFound)
      by_cases same : owner.id = set.id
      · cases registered.eq_of_id isKnown isFormed same
        have reflexive : set.kind ≤ set.kind := Nat.le_refl _
        simp [Collection.numberKind, reflexive]
      · have different : (owner.id == set.id) = false := beq_eq_false_iff_ne.mpr same
        dsimp only [Option.any_some]
        rw [different, Bool.false_or]
        cases owner.numberKind <;> rfl

theorem Registered.mem_formed_of_chain {set level : NumberSet} (registered : run.Registered)
    (isFormed : .number set ∈ run.formed) (isLevel : level ∈ set.chain) :
    .number level ∈ run.formed := by
  rw [set.chain_eq_cons] at isLevel
  rcases List.mem_cons.mp isLevel with rfl | isSmaller
  · exact isFormed
  · exact registered.constituents _ isFormed _ (List.mem_map_of_mem isSmaller)

theorem Registered.containsNumber_of_standing {set : NumberSet} (registered : run.Registered)
    (isFormed : .number set ∈ run.formed) (same : x.key = y.key)
    (standing : run.store.isNumberWithin set.kind x = run.store.isNumberWithin set.kind y)
    (contains : run.store.containsNumber set x = true) :
    run.store.containsNumber set y = true := by
  obtain ⟨level, isLevel, atLevel⟩ := List.any_eq_true.mp contains
  refine List.any_eq_true.mpr ?_
  rw [Store.containsAtLevel, Bool.or_eq_true, Bool.or_eq_true] at atLevel
  rcases atLevel with (isLiteral | belongs) | isMember
  · refine ⟨level, isLevel, ?_⟩
    rw [Store.containsAtLevel, ← Object.name_of_key same, isLiteral]
    rfl
  -- What belongs to a smaller number set counts as belonging to the largest of the chain.
  · rw [registered.belongs_eq (registered.mem_formed_of_chain isFormed isLevel)] at belongs
    have isNumber := Store.isNumberWithin_mono (NumberSet.kind_le_of_mem_chain isLevel) belongs
    refine ⟨set, set.chain_eq_cons ▸ List.mem_cons_self, ?_⟩
    rw [Store.containsAtLevel, registered.belongs_eq isFormed, ← standing, isNumber]
    simp
  · refine ⟨level, isLevel, ?_⟩
    rw [Store.containsAtLevel, ← Object.contains_of_key same, isMember]
    simp

mutual

/-- Equal elements of the same standing lie in a set alike. -/
theorem Registered.contains_of_standing (registered : run.Registered) :
    (set : Collection) → {x y : Object} → set ∈ run.formed → x.key = y.key →
    run.store.SameStanding set x y → run.store.contains set x = run.store.contains set y
  | .plain id name, x, y, _, same, _ => by
      rw [Store.contains, Store.contains, Object.contains_of_key same]
  | .number set, x, y, isFormed, same, standing => by
      rw [Store.SameStanding] at standing
      rw [Store.contains, Store.contains, Bool.eq_iff_iff]
      exact ⟨registered.containsNumber_of_standing isFormed same standing,
        registered.containsNumber_of_standing isFormed same.symm standing.symm⟩
  | .product id name factors, x, y, isFormed, _, standing => by
      rw [Store.SameStanding] at standing
      rw [Store.contains, Store.contains, Object.isTuple_of_length standing.length,
        registered.containsEach_of_standings factors (registered.constituents _ isFormed) standing]
  | .function id name domain range mapping, x, y, _, _, _ => by
      rw [Store.contains, Store.contains]

theorem Registered.containsEach_of_standings (registered : run.Registered) :
    (factors : List Collection) → {xs ys : List Object} →
    (∀ factor ∈ factors, factor ∈ run.formed) → run.store.SameStandings factors xs ys →
    run.store.containsEach factors xs = run.store.containsEach factors ys
  | _, [], ys, _, standings => by
      rw [List.eq_nil_of_length_eq_zero standings.length.symm]
  | _, xs, [], _, standings => by
      rw [List.eq_nil_of_length_eq_zero standings.length]
  | [], x :: xs, y :: ys, _, _ => rfl
  | factor :: factors, x :: xs, y :: ys, areFormed, standings => by
      rw [Store.SameStandings] at standings
      obtain ⟨ofFactor, ofFactors⟩ := List.forall_mem_cons.mp areFormed
      rw [Store.containsEach, Store.containsEach,
        registered.contains_of_standing factor ofFactor standings.1 standings.2.1,
        registered.containsEach_of_standings factors ofFactors standings.2.2]

end

end Run

/-! ## Judgments -/

theorem Kernel.exists_membership_iff (p : Proposition) (store : Store) :
    (∃ proof, (outcome (proveMembership p) store).1 = .ok proof) ↔
      ∃ x set, p = .member x set ∧ store.contains set x = true := by
  have isJudged : outcome (proveMembership p) store = outcome (do
      liftExcept (Inference.judgeMembership store p)
      certify p .membership []) store := rfl
  rw [isJudged]
  constructor
  · rintro ⟨proof, ok⟩
    cases p with
    | member x set =>
        refine ⟨x, set, rfl, ?_⟩
        by_contra missing
        rw [Inference.judgeMembership, if_neg missing] at ok
        cases ok
    | _ => cases ok
  · rintro ⟨x, set, rfl, contains⟩
    rw [Inference.judgeMembership, if_pos contains]
    exact ⟨_, rfl⟩

/-- Memberships speak of one and the same set, and their elements have the same standing
in it. -/
def Store.Alike (store : Store) (p q : Proposition) : Prop :=
  ∀ x s y t, p = .member x s → q = .member y t → s.same t = true ∧ store.SameStanding s x y

/-- Equal propositions are judged alike, unless they are memberships of elements of
different standing or in different sets of the same name. -/
theorem Run.Reachable.proveMembership_of_alike {run : Run} (reachable : run.Reachable)
    {p q : Proposition} (isHeld : run.Holds (.proposition p)) (isHeld' : run.Holds (.proposition q))
    (equal : (p == q) = true) (alike : run.store.Alike p q) :
    (∃ proof, (Kernel.outcome (Kernel.proveMembership p) run.store).1 = .ok proof) ↔
      ∃ proof, (Kernel.outcome (Kernel.proveMembership q) run.store).1 = .ok proof := by
  have registered := reachable.registered
  rw [Kernel.exists_membership_iff, Kernel.exists_membership_iff]
  by_cases isMembership : ∃ x s, p = .member x s
  · obtain ⟨x, s, rfl⟩ := isMembership
    obtain ⟨y, t, rfl, sameKey, _⟩ := Proposition.eq_of_member_beq equal
    obtain ⟨same, standing⟩ := alike x s y t rfl rfl
    have isFormed : s ∈ run.formed := registered.of_held isHeld s List.mem_cons_self
    have isFormed' : t ∈ run.formed := registered.of_held isHeld' t List.mem_cons_self
    cases registered.eq_of_id isFormed isFormed' (eq_of_beq same)
    have contained := registered.contains_of_standing s isFormed sameKey standing
    constructor
    · rintro ⟨_, _, ⟨⟩, contains⟩
      exact ⟨y, s, rfl, contained ▸ contains⟩
    · rintro ⟨_, _, ⟨⟩, contains⟩
      exact ⟨x, s, rfl, contained ▸ contains⟩
  · have isNone : ¬∃ y t, q = .member y t := by
      rintro ⟨y, t, rfl⟩
      cases p with
      | member x s => exact isMembership ⟨x, s, rfl⟩
      | _ => cases equal
    refine iff_of_false ?_ ?_
    · exact fun ⟨x, s, isMember, _⟩ => isMembership ⟨x, s, isMember⟩
    · exact fun ⟨y, t, isMember, _⟩ => isNone ⟨y, t, isMember⟩

/-! ## Samples

There are two sets `S`, of which the first contains `a` and the second `b, c`, and their
product `P`. One object `n` belongs to the naturals and another one does not. Three tuples
are called `(a, b, c)`, where the third consists of `a, b` and `c`. -/

namespace Run

theorem Holds.member {run : Run} {x : Object} {set : Collection} (element : run.Holds (.object x))
    (ofSet : run.Holds (.set set)) : run.Holds (.proposition (.member x set)) :=
  .proposition (List.forall_mem_singleton.mpr element) (List.forall_mem_singleton.mpr ofSet)

/-- The first proposition can be proved by judgment and the second, which is equal, cannot. -/
def JudgesApart (run : Run) (p q : Proposition) : Prop :=
  run.Holds (.proposition p) ∧ run.Holds (.proposition q) ∧ (p == q) = true ∧
    (∃ proof, (Kernel.outcome (Kernel.proveMembership p) run.store).1 = .ok proof) ∧
    ¬∃ proof, (Kernel.outcome (Kernel.proveMembership q) run.store).1 = .ok proof

namespace Sample

def first : Collection := .plain 1 "S"

def second : Collection := .plain 2 "S"

def naturals : Collection := .number (.naturals 3)

def squares : Collection := .product 6 "P" [first, second]

def formations : Run :=
  (((start.after (.plainSet "S")).after (.plainSet "S")).after .numberSets).after
    (.productSet "P" [first, second])

def ofFirst : Object := ⟨1, "a", none, []⟩

def ofSecond : Object := ⟨2, "b, c", none, []⟩

def longer : Object := ⟨3, "a, b", none, []⟩

def shorter : Object := ⟨4, "c", none, []⟩

def components : Run :=
  (((formations.after (.object "a")).after (.object "b, c")).after (.object "a, b")).after
    (.object "c")

def pair : Object := ⟨5, "(a, b, c)", none, [ofFirst, ofSecond]⟩

def twin : Object := ⟨6, "(a, b, c)", none, [ofFirst, ofSecond]⟩

def rival : Object := ⟨7, "(a, b, c)", none, [longer, shorter]⟩

def tuples : Run :=
  ((components.after (.tuple [ofFirst, ofSecond])).after (.tuple [ofFirst, ofSecond])).after
    (.tuple [longer, shorter])

def number : Object := ⟨8, "n", some 3, []⟩

def namesake : Object := ⟨9, "n", none, []⟩

def populated : Run :=
  (((tuples.after (.objectIn "n" naturals)).after (.object "n")).after
    (.insert first ofFirst)).after (.insert second ofSecond)

theorem reachable_formations : formations.Reachable := by
  have formed : (((start.after (.plainSet "S")).after (.plainSet "S")).after
      .numberSets).Reachable := by
    refine .after (.after (.after .start ?_) ?_) ?_ <;> exact fun _ member => nomatch member
  refine .after formed (List.forall_mem_cons.mpr ⟨?_, List.forall_mem_singleton.mpr ?_⟩)
  · exact .result (List.mem_of_getElem? (i := 2) rfl) List.mem_cons_self
  · exact .result (List.mem_of_getElem? (i := 1) rfl) List.mem_cons_self

theorem reachable_components : components.Reachable := by
  refine .after (.after (.after (.after reachable_formations ?_) ?_) ?_) ?_ <;>
    exact fun _ member => nomatch member

theorem reachable_tuples : tuples.Reachable := by
  refine .after (.after (.after reachable_components ?_) ?_) ?_
  · refine List.forall_mem_cons.mpr ⟨?_, List.forall_mem_singleton.mpr ?_⟩
    · exact .result (List.mem_of_getElem? (i := 3) rfl) List.mem_cons_self
    · exact .result (List.mem_of_getElem? (i := 2) rfl) List.mem_cons_self
  · refine List.forall_mem_cons.mpr ⟨?_, List.forall_mem_singleton.mpr ?_⟩
    · exact .result (List.mem_of_getElem? (i := 4) rfl) List.mem_cons_self
    · exact .result (List.mem_of_getElem? (i := 3) rfl) List.mem_cons_self
  · refine List.forall_mem_cons.mpr ⟨?_, List.forall_mem_singleton.mpr ?_⟩
    · exact .result (List.mem_of_getElem? (i := 3) rfl) List.mem_cons_self
    · exact .result (List.mem_of_getElem? (i := 2) rfl) List.mem_cons_self

theorem reachable_populated : populated.Reachable := by
  refine .after (.after (.after (.after reachable_tuples ?_) ?_) ?_) ?_
  · refine List.forall_mem_singleton.mpr ?_
    exact .result (List.mem_of_getElem? (i := 8) rfl) List.mem_cons_self
  · exact fun _ member => nomatch member
  · refine List.forall_mem_cons.mpr ⟨?_, List.forall_mem_singleton.mpr ?_⟩
    · exact .result (List.mem_of_getElem? (i := 12) rfl) List.mem_cons_self
    · exact .result (List.mem_of_getElem? (i := 8) rfl) List.mem_cons_self
  · refine List.forall_mem_cons.mpr ⟨?_, List.forall_mem_singleton.mpr ?_⟩
    · exact .result (List.mem_of_getElem? (i := 12) rfl) List.mem_cons_self
    · exact .result (List.mem_of_getElem? (i := 8) rfl) List.mem_cons_self

theorem holds_pair : populated.Holds (.object pair) :=
  .result (List.mem_of_getElem? (i := 6) rfl) List.mem_cons_self

theorem holds_squares : populated.Holds (.set squares) :=
  .result (List.mem_of_getElem? (i := 11) rfl) List.mem_cons_self

theorem holds_naturals : populated.Holds (.set naturals) :=
  .result (List.mem_of_getElem? (i := 12) rfl) List.mem_cons_self

end Sample

theorem Reachable.proveMembership_of_alike_twin :
    (∃ proof, (Kernel.outcome (Kernel.proveMembership (.member Sample.pair Sample.squares))
        Sample.populated.store).1 = .ok proof) ∧
      ∃ proof, (Kernel.outcome (Kernel.proveMembership (.member Sample.twin Sample.squares))
        Sample.populated.store).1 = .ok proof := by
  have isHeld : Sample.populated.Holds (.object Sample.twin) :=
    .result (List.mem_of_getElem? (i := 5) rfl) List.mem_cons_self
  have alike : Sample.populated.store.Alike (.member Sample.pair Sample.squares)
      (.member Sample.twin Sample.squares) := by
    rintro x s y t ⟨⟩ ⟨⟩
    refine ⟨rfl, ?_⟩
    simp [Store.SameStanding, Store.SameStandings, Sample.squares, Sample.pair, Sample.twin,
      Sample.first, Sample.second]
  have isProved : ∃ proof, (Kernel.outcome (Kernel.proveMembership
      (.member Sample.pair Sample.squares)) Sample.populated.store).1 = .ok proof := ⟨_, rfl⟩
  exact ⟨isProved, (proveMembership_of_alike Sample.reachable_populated
    (.member Sample.holds_pair Sample.holds_squares) (.member isHeld Sample.holds_squares) rfl
    alike).mp isProved⟩

/-- The set, the standing of the element and its components all matter. -/
theorem Reachable.judgesApart_of_equal :
    Sample.populated.Reachable ∧
      Sample.populated.JudgesApart (.member Sample.ofFirst Sample.first)
        (.member Sample.ofFirst Sample.second) ∧
      Sample.populated.JudgesApart (.member Sample.number Sample.naturals)
        (.member Sample.namesake Sample.naturals) ∧
      Sample.populated.JudgesApart (.member Sample.pair Sample.squares)
        (.member Sample.rival Sample.squares) := by
  refine ⟨Sample.reachable_populated, ⟨?_, ?_, rfl, ⟨_, rfl⟩, ?_⟩, ⟨?_, ?_, rfl, ⟨_, rfl⟩, ?_⟩,
    ⟨?_, ?_, rfl, ⟨_, rfl⟩, ?_⟩⟩
  · exact .member (.result (List.mem_of_getElem? (i := 10) rfl) List.mem_cons_self)
      (.result (List.mem_of_getElem? (i := 14) rfl) List.mem_cons_self)
  · exact .member (.result (List.mem_of_getElem? (i := 10) rfl) List.mem_cons_self)
      (.result (List.mem_of_getElem? (i := 13) rfl) List.mem_cons_self)
  · exact fun ⟨_, ok⟩ => nomatch ok
  · exact .member (.result (List.mem_of_getElem? (i := 3) rfl) List.mem_cons_self)
      Sample.holds_naturals
  · exact .member (.result (List.mem_of_getElem? (i := 2) rfl) List.mem_cons_self)
      Sample.holds_naturals
  · exact fun ⟨_, ok⟩ => nomatch ok
  · exact .member Sample.holds_pair Sample.holds_squares
  · exact .member (.result (List.mem_of_getElem? (i := 4) rfl) List.mem_cons_self)
      Sample.holds_squares
  · exact fun ⟨_, ok⟩ => nomatch ok

end Run

end Deduction
