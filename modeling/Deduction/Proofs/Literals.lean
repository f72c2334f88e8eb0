import Deduction.Proofs.Inclusion
import Deduction.Proofs.Naturals

/-! # Literals among the number sets

The literals of a smaller kind of number set are literals of the larger kinds, so a numeral
has a least kind. A literal belongs to the number set of that kind. It lies there and in the
larger sets, and nothing but an insertion puts it into a smaller one. -/

namespace Deduction

open Numeral (read)

/-! ## Kinds of literals -/

namespace NumberKind

variable {name : String} {kind larger : NumberKind}

theorem isLiteral_rationals_of_naturals (isLiteral : naturals.isLiteral name = true) :
    rationals.isLiteral name = true := by
  simp only [NumberKind.isLiteral, Numeral.allDigits, Bool.and_eq_true, Bool.not_eq_true',
    List.isEmpty_eq_false_iff, List.all_eq_true] at isLiteral
  have noPoint : '.' ∉ name.toList :=
    fun isPoint => Bool.false_ne_true (isLiteral.2 '.' isPoint)
  have isRead : (Numeral.readCharacters name.toList).isSome = true := by
    cases characters : name.toList with
    | nil => exact absurd characters isLiteral.1
    | cons first rest =>
        rw [characters] at isLiteral noPoint
        have isInteger := Numeral.IsInteger.mk .absent (isLiteral.2 first List.mem_cons_self)
          fun c member => .inl (isLiteral.2 c (List.mem_cons_of_mem first member))
        have isValue := (Numeral.readCharacters_of_no_point noPoint _).mpr
          (.inl ⟨_, isInteger, rfl⟩)
        rw [isValue, Option.isSome_some]
  simp [NumberKind.isLiteral, Numeral.read, noPoint, isRead]

theorem isLiteral_reals_of_rationals (isLiteral : rationals.isLiteral name = true) :
    reals.isLiteral name = true :=
  (Bool.and_eq_true_iff.mp isLiteral).2

theorem le_iff_rank_le : kind ≤ larger ↔ kind.rank ≤ larger.rank :=
  Iff.rfl

theorem le_reals (kind : NumberKind) : kind ≤ .reals := by
  cases kind <;> simp [le_iff_rank_le, rank]

/-- The least kind that has the name as a literal. -/
def IsLeastFor (least : NumberKind) (name : String) : Prop :=
  ∀ kind : NumberKind, kind.isLiteral name = decide (least ≤ kind)

theorem exists_isLeastFor (isRead : (read name).isSome = true) :
    ∃ least, IsLeastFor least name := by
  have ofReals : reals.isLiteral name = true := isRead
  cases ofRationals : rationals.isLiteral name with
  | false =>
      have ofNaturals : naturals.isLiteral name = false := by
        apply Bool.eq_false_iff.mpr
        intro isNatural
        rw [isLiteral_rationals_of_naturals isNatural] at ofRationals
        cases ofRationals
      refine ⟨.reals, fun kind => ?_⟩
      cases kind <;> assumption
  | true =>
      cases ofNaturals : naturals.isLiteral name with
      | false =>
          refine ⟨.rationals, fun kind => ?_⟩
          cases kind <;> assumption
      | true =>
          refine ⟨.naturals, fun kind => ?_⟩
          cases kind <;> assumption

theorem isLiteral_of_le (le : kind ≤ larger) (isLiteral : kind.isLiteral name = true) :
    larger.isLiteral name = true := by
  have isRead : reals.isLiteral name = true := by
    cases kind with
    | naturals => exact isLiteral_reals_of_rationals (isLiteral_rationals_of_naturals isLiteral)
    | rationals => exact isLiteral_reals_of_rationals isLiteral
    | reals => exact isLiteral
  rcases exists_isLeastFor isRead with ⟨least, isLeast⟩
  rw [isLeast, decide_eq_true_eq] at isLiteral ⊢
  exact Nat.le_trans isLiteral le

end NumberKind

/-! ## Creating literals -/

/-- Holds if the set is a number set that has the name as a literal. -/
def Collection.hasLiteral (set : Collection) (name : String) : Bool :=
  match set.numberKind with
  | some kind => kind.isLiteral name
  | none => false

namespace NumberSet

variable {top set level : NumberSet}

theorem mem_chain_iff_kind_le (isSet : set ∈ top.chain) (isLevel : level ∈ top.chain) :
    set ∈ level.chain ↔ set.kind ≤ level.kind := by
  cases top <;> simp only [chain, List.mem_cons, List.not_mem_nil, or_false] at isSet isLevel <;>
    rcases isSet with rfl | rfl | rfl <;> rcases isLevel with rfl | rfl | rfl <;>
    simp [chain, kind, NumberKind.le_iff_rank_le, NumberKind.rank]

/-- The number set together with all smaller ones, the smallest first. -/
def levels (top : NumberSet) : List Collection :=
  top.chain.reverse.map .number

theorem mem_levels {set : Collection} :
    set ∈ top.levels ↔ ∃ level ∈ top.chain, .number level = set := by
  simp [levels]

variable {name : String}

/-- The smallest level that has the name is the one of the least kind. -/
theorem find_level (isReals : top.kind = .reals) (isRead : (read name).isSome = true) :
    ∃ set ∈ top.chain, set.kind.IsLeastFor name ∧
      top.levels.find? (·.hasLiteral name) = some (.number set) := by
  rcases NumberKind.exists_isLeastFor isRead with ⟨least, isLeast⟩
  have hasLiteral : ∀ level : NumberSet,
      (Collection.number level).hasLiteral name = decide (least.rank ≤ level.kind.rank) :=
    fun level => isLeast level.kind
  cases top with
  | naturals n => cases isReals
  | rationals q n => cases isReals
  | reals r q n =>
      cases least with
      | naturals =>
          refine ⟨.naturals n, by simp [chain], isLeast, ?_⟩
          simp [levels, chain, hasLiteral, kind, NumberKind.rank]
      | rationals =>
          refine ⟨.rationals q n, by simp [chain], isLeast, ?_⟩
          simp [levels, chain, hasLiteral, kind, NumberKind.rank]
      | reals =>
          refine ⟨.reals r q n, by simp [chain], isLeast, ?_⟩
          simp [levels, chain, hasLiteral, kind, NumberKind.rank]

theorem isSome_find_level_iff (isReals : top.kind = .reals) :
    (top.levels.find? (·.hasLiteral name)).isSome = true ↔ (read name).isSome = true := by
  constructor
  · intro isFound
    rcases List.find?_isSome.mp isFound with ⟨_, isLevel, hasLiteral⟩
    rcases mem_levels.mp isLevel with ⟨level, _, rfl⟩
    exact NumberKind.isLiteral_of_le (NumberKind.le_reals level.kind) hasLiteral
  · intro isRead
    rcases find_level isReals isRead with ⟨set, _, _, isFound⟩
    rw [isFound, Option.isSome_some]

end NumberSet

namespace Kernel

/-- The three sets, the smallest first. -/
def Numbers.sets (numbers : Numbers) : List Collection :=
  [numbers.naturals, numbers.rationals, numbers.reals]

/-- A literal of the first set that has the name. -/
def literalOf (name : String) (store : Store) (set : Collection) : Object :=
  ⟨store.created + 1, name, some set.id, []⟩

theorem outcome_literal (numbers : Numbers) (name : String) (store : Store) :
    ∃ after, outcome (literal numbers name) store =
      (.ok ((numbers.sets.find? (·.hasLiteral name)).map (literalOf name store)), after) := by
  rw [literal]
  split
  · rename_i set isFound
    have isFirst : numbers.sets.find? (·.hasLiteral name) = some set := isFound
    rw [isFirst]
    exact ⟨_, rfl⟩
  · rename_i isMissing
    have isNone : numbers.sets.find? (·.hasLiteral name) = none := isMissing
    rw [isNone]
    exact ⟨_, rfl⟩

end Kernel

namespace Run

variable {run : Run} {numbers : Kernel.Numbers} {name : String}

/-- The number sets were formed together by a call of the run. -/
def Made (run : Run) (numbers : Kernel.Numbers) : Prop :=
  ⟨.numberSets, numbers.sets.map .set⟩ ∈ run.history

/-- The three sets are the levels of the largest one. -/
theorem Reachable.exists_of_made (reachable : run.Reachable) (made : run.Made numbers) :
    ∃ top : NumberSet, top.kind = .reals ∧ .number top ∈ run.formed ∧
      numbers.sets = top.levels := by
  have isMade : ∃ top : NumberSet, top.kind = .reals ∧
      numbers.sets = top.levels := by
    induction reachable with
    | start => cases made
    | @after run call _ _ induction =>
        rcases List.mem_cons.mp made with isLast | isEarlier
        · cases call with
          | numberSets =>
              have results := congrArg Entry.results isLast
              exact ⟨.reals (run.store.formed + 3) (run.store.formed + 2) (run.store.formed + 1),
                rfl, List.map_injective_iff.mpr (fun _ _ same => Session.Item.set.inj same) results⟩
          | _ => cases isLast
        · exact induction isEarlier
    | release _ _ induction => exact induction made
  rcases isMade with ⟨top, isReals, areLevels⟩
  refine ⟨top, isReals, ?_, areLevels⟩
  apply List.mem_flatMap.mpr
  refine ⟨_, made, ?_⟩
  rw [areLevels, NumberSet.levels, top.chain_eq_cons]
  simp [Entry.formed, Call.formsSets, Session.Item.collection]

theorem Registered.includes_iff_kind_le (registered : run.Registered) {top set level : NumberSet}
    (isFormed : .number top ∈ run.formed) (isSet : set ∈ top.chain) (isLevel : level ∈ top.chain) :
    (Collection.number level).includes (.number set) = true ↔ set.kind ≤ level.kind := by
  have ofSet := registered.mem_formed_of_chain isFormed isSet
  have ofLevel := registered.mem_formed_of_chain isFormed isLevel
  rw [registered.includes_iff ofLevel ofSet, ← NumberSet.mem_chain_iff_kind_le isSet isLevel]
  constructor
  · rintro (same | ⟨_, _, ⟨⟩, ⟨⟩, isLower⟩)
    · cases same
      exact set.chain_eq_cons ▸ List.mem_cons_self
    · exact isLower
  · intro isLower
    exact .inr ⟨level, set, rfl, rfl, isLower⟩

/-- The literal lies in the number sets of its kind and of the larger ones. -/
theorem Reachable.contains_literal_iff (reachable : run.Reachable) {set level : NumberSet}
    (isFormed : .number set ∈ run.formed) (isFormed' : .number level ∈ run.formed) {x : Object}
    (isOwned : x.owner = some set.id) (isLeast : set.kind.IsLeastFor x.name)
    (noneEqual : ∀ lower ∈ level.chain, ∀ y, run.Inserted lower.id y → (x == y) = false) :
    run.store.contains (.number level) x = true ↔ set.kind ≤ level.kind := by
  have registered := reachable.registered
  rw [Store.contains, Store.containsNumber, List.any_eq_true]
  constructor
  · rintro ⟨lower, isLower, atLower⟩
    have isBelow := NumberSet.kind_le_of_mem_chain isLower
    rw [Store.containsAtLevel, Bool.or_eq_true, Bool.or_eq_true] at atLower
    rcases atLower with (isLiteral | belongs) | isMember
    · rw [isLeast, decide_eq_true_eq] at isLiteral
      exact Nat.le_trans isLiteral isBelow
    -- If the owner still exists it is the set of the least kind.
    · rw [registered.belongs_eq (registered.mem_formed_of_chain isFormed' isLower),
        Store.isNumberWithin, Store.owner, isOwned, Option.bind_some] at belongs
      cases isFound : run.store.find set.id with
      | none =>
          rw [isFound] at belongs
          cases belongs
      | some owner =>
          have isKnown := registered.living owner (List.mem_of_find?_eq_some isFound)
          have isOwner := registered.eq_of_id isKnown isFormed (Store.id_of_find isFound)
          rw [isFound, isOwner, Option.any_some] at belongs
          exact Nat.le_trans (of_decide_eq_true belongs) isBelow
    · have isRead : NumberKind.reals.isLiteral x.name = true := by
        rw [isLeast, decide_eq_true (NumberKind.le_reals set.kind)]
      rcases Option.isSome_iff_exists.mp isRead with ⟨q, isValue⟩
      rcases reachable.inserted_of_numeral isValue isMember with ⟨y, inserted, equal⟩
      rw [noneEqual lower isLower y inserted] at equal
      cases equal
  · intro le
    refine ⟨level, level.chain_eq_cons ▸ List.mem_cons_self, ?_⟩
    rw [Store.containsAtLevel, isLeast, decide_eq_true le, Bool.true_or, Bool.true_or]

/-- A literal belongs to the smallest set that has it, and lies there and in the larger sets
as long as no equal object is inserted into one of the three. -/
theorem Reachable.literal_placed (reachable : run.Reachable) (made : run.Made numbers)
    (name : String) :
    (∀ {kind larger : NumberKind}, kind ≤ larger → kind.isLiteral name = true →
      larger.isLiteral name = true) ∧
    ∃ found after, Kernel.outcome (Kernel.literal numbers name) run.store = (.ok found, after) ∧
      (found.isSome = true ↔ (read name).isSome = true) ∧
      ∀ x, found = some x → x.name = name ∧ ∃ set ∈ numbers.sets, x.owner = some set.id ∧
        (∀ level ∈ numbers.sets, level.hasLiteral name = true ↔ level.includes set = true) ∧
        ∀ later : Run, later.Reachable → run.history <:+ later.history →
          (∀ level ∈ numbers.sets, ∀ y, later.Inserted level.id y → (x == y) = false) →
          ∀ level ∈ numbers.sets,
            later.store.contains level x = true ↔ level.includes set = true := by
  refine ⟨NumberKind.isLiteral_of_le, ?_⟩
  rcases reachable.exists_of_made made with ⟨top, isReals, isFormed, areLevels⟩
  rcases Kernel.outcome_literal numbers name run.store with ⟨after, isOutcome⟩
  refine ⟨_, after, isOutcome, ?_⟩
  rw [Option.isSome_map, areLevels]
  refine ⟨NumberSet.isSome_find_level_iff isReals, fun x isLiteral => ?_⟩
  have isFound := Option.isSome_map ▸ Option.isSome_of_eq_some isLiteral
  have isRead := (NumberSet.isSome_find_level_iff isReals).mp isFound
  rcases NumberSet.find_level isReals isRead with ⟨set, isSet, isLeast, isFirst⟩
  rw [isFirst] at isLiteral
  cases isLiteral
  refine ⟨rfl, .number set, NumberSet.mem_levels.mpr ⟨set, isSet, rfl⟩, rfl, ?_, ?_⟩
  · intro _ isLevel
    rcases NumberSet.mem_levels.mp isLevel with ⟨level, isLower, rfl⟩
    rw [reachable.registered.includes_iff_kind_le isFormed isSet isLower]
    exact (Bool.eq_iff_iff.mp (isLeast level.kind)).trans decide_eq_true_iff
  · intro later reachable' isLater noneEqual _ isLevel
    rcases NumberSet.mem_levels.mp isLevel with ⟨level, isLower, rfl⟩
    have registered := reachable'.registered
    have isFormed' : .number top ∈ later.formed := by
      rcases List.mem_flatMap.mp isFormed with ⟨entry, isEntry, ofEntry⟩
      exact List.mem_flatMap.mpr ⟨entry, isLater.subset isEntry, ofEntry⟩
    have isOwned : (Kernel.literalOf name run.store (.number set)).owner = some set.id := rfl
    rw [registered.includes_iff_kind_le isFormed' isSet isLower]
    apply reachable'.contains_literal_iff (registered.mem_formed_of_chain isFormed' isSet)
      (registered.mem_formed_of_chain isFormed' isLower) isOwned isLeast
    intro lowest isLowest
    apply noneEqual (.number lowest)
    exact NumberSet.mem_levels.mpr ⟨lowest, NumberSet.chain_subset_of_mem isLower isLowest, rfl⟩

/-! In the sample `2/4` is inserted into the naturals, which is not equal to `1/2`. -/

namespace Sample

def allNumbers : Kernel.Numbers := ⟨lowest, middle, highest⟩

def twoQuarters : Object := ⟨1, "2/4", none, []⟩

def misplaced : Run :=
  (counted.after (.object "2/4")).after (.insert lowest twoQuarters)

def halved : Run :=
  misplaced.after (.literal allNumbers "1/2")

theorem reachable_misplaced : misplaced.Reachable := by
  apply Reachable.after
  · apply Reachable.after reachable_counted
    exact fun _ member => nomatch member
  · refine List.forall_mem_cons.mpr ⟨?_, List.forall_mem_singleton.mpr ?_⟩
    · exact .result (List.mem_of_getElem? (i := 1) rfl) List.mem_cons_self
    · exact .result (List.mem_of_getElem? (i := 0) rfl) List.mem_cons_self

theorem made_allNumbers : misplaced.Made allNumbers :=
  List.mem_of_getElem? (i := 2) rfl

theorem reachable_halved : halved.Reachable := by
  apply Reachable.after reachable_misplaced
  intro item member
  exact .result made_allNumbers member

theorem eq_of_inserted_halved {set : SetId} {x : Object} (inserted : halved.Inserted set x) :
    x = twoQuarters := by
  rcases inserted with ⟨entry, isEntry, target, isInsertion, _⟩
  have isCall : entry.call ∈ halved.history.map (·.call) := List.mem_map_of_mem isEntry
  rw [isInsertion] at isCall
  simp [halved, misplaced, counted, after, start] at isCall
  exact isCall.2

end Sample

open Sample in
theorem Reachable.literal_placed_halved :
    misplaced.Reachable ∧ misplaced.Made allNumbers ∧ halved.Reachable ∧
      ∃ x after, Kernel.outcome (Kernel.literal allNumbers "1/2") misplaced.store =
          (.ok (some x), after) ∧
        x.owner = some middle.id ∧ halved.store.contains lowest twoQuarters = true ∧
        halved.store.contains lowest x = false ∧ halved.store.contains middle x = true ∧
        halved.store.contains highest x = true := by
  rcases reachable_misplaced.literal_placed made_allNumbers "1/2" with
    ⟨_, found, after, isOutcome, isFound, placed⟩
  have isRead : (read "1/2").isSome = true := by decide +kernel
  rcases Option.isSome_iff_exists.mp (isFound.mpr isRead) with ⟨x, rfl⟩
  rcases placed x rfl with ⟨isName, set, isSet, isOwned, least, lies⟩
  have ofLowest : lowest ∈ allNumbers.sets := List.mem_of_getElem? (i := 0) rfl
  have ofMiddle : middle ∈ allNumbers.sets := List.mem_of_getElem? (i := 1) rfl
  have ofHighest : highest ∈ allNumbers.sets := List.mem_of_getElem? (i := 2) rfl
  have isMiddle : set = middle := by
    simp only [Kernel.Numbers.sets, allNumbers, List.mem_cons, List.not_mem_nil, or_false] at isSet
    rcases isSet with rfl | rfl | rfl
    · have isNatural := (least lowest ofLowest).mpr rfl
      cases isNatural
    · rfl
    · have isBelow := (least middle ofMiddle).mp (by decide +kernel)
      cases isBelow
  subst isMiddle
  have different : (x == twoQuarters) = false := by
    apply Bool.eq_false_iff.mpr
    intro equal
    have sameName := Object.name_of_key (Object.beq_iff_key.mp equal)
    rw [isName] at sameName
    simp [twoQuarters] at sameName
  have contained := lies halved reachable_halved (List.suffix_cons _ _)
    fun level _ y inserted => eq_of_inserted_halved inserted ▸ different
  have notBelow : ¬lowest.includes middle = true := Bool.false_ne_true
  refine ⟨reachable_misplaced, made_allNumbers, reachable_halved, x, after, isOutcome, isOwned,
    rfl, ?_, ?_, ?_⟩
  · exact Bool.eq_false_iff.mpr (mt (contained lowest ofLowest).mp notBelow)
  · exact (contained middle ofMiddle).mpr rfl
  · exact (contained highest ofHighest).mpr rfl

end Run

end Deduction
