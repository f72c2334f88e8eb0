import Deduction.Proofs.Arithmetic
import Deduction.Proofs.Growth

/-! # Leaving the naturals

Whether the result of a step belongs to the naturals is decided by its name. The name of a
number is written from the exact value, so the value decides. Besides numerals and the objects
that belong to it, a set of naturals contains what was inserted into it and the images of
functions into it, but an image is never called by a numeral. -/

namespace Deduction

/-! ## Written naturals -/

namespace Numeral

variable {text : List Char}

theorem IsInteger.exists_natural {n : Int} (isInteger : IsInteger text n)
    (areDigits : ∀ c ∈ text, c.isDigit = true) : ∃ m : Nat, n = m := by
  cases isInteger with
  | mk sign _ _ =>
      cases sign with
      | minus => cases areDigits '-' List.mem_cons_self
      | absent => exact ⟨_, rfl⟩
      | plus => exact ⟨_, rfl⟩

theorem IsQuotient.slash_mem {q : Rat} (isQuotient : IsQuotient text q) : '/' ∈ text := by
  cases isQuotient with
  | mk _ _ _ => simp

theorem toList_write_natCast (n : Nat) : (write n).toList = Nat.toDigits 10 n := by
  simp [write, Int.repr_eq_if]

/-- The values that are written by digits alone are the natural numbers. -/
theorem isLiteral_write_iff (q : Rat) :
    NumberKind.naturals.isLiteral (write q) = true ↔ ∃ n : Nat, q = n := by
  constructor
  · intro isLiteral
    have areDigits := List.all_eq_true.mp (Bool.and_eq_true_iff.mp isLiteral).2
    rcases write_denotes q with ⟨n, isInteger, isValue⟩ | isQuotient
    · obtain ⟨m, rfl⟩ := isInteger.exists_natural areDigits
      exact ⟨m, by rw [isValue, Rat.intCast_natCast]⟩
    · cases areDigits '/' isQuotient.slash_mem
  · rintro ⟨n, rfl⟩
    have areDigits : ∀ c ∈ Nat.toDigits 10 n, c.isDigit = true :=
      fun c member => Nat.isDigit_of_mem_toDigits (by decide) (by decide) member
    simpa [NumberKind.isLiteral, allDigits, toList_write_natCast, Nat.toDigits_ne_nil]
      using areDigits

end Numeral

open Numeral (read write)

namespace Kernel

theorem leavesNaturals_write_iff (q : Rat) :
    leavesNaturals .naturals (write q) = true ↔ ¬∃ n : Nat, q = n := by
  rw [← Numeral.isLiteral_write_iff]
  simp [leavesNaturals]

end Kernel

/-! ## Members -/

namespace Store

variable {store after : Store} {known : Collection → Prop} {given : SetId → Object → Prop}
  {set : SetId} {x : Object}

theorem Update.mem_members (update : store.Update known given after)
    (member : x ∈ after.members set) : x ∈ store.members set ∨ Enters known given set x := by
  cases update with
  | @member other y enters _ =>
      by_cases same : set = other
      · subst same
        rw [members_addMember_same] at member
        rcases List.mem_append.mp member with isOld | isNew
        · exact .inl isOld
        · exact .inr (List.mem_singleton.mp isNew ▸ enters)
      · rw [members_addMember_other store y same] at member
        exact .inl member
  | _ => exact .inl member

theorem Updates.mem_members (updates : store.Updates known given after)
    (member : x ∈ after.members set) : x ∈ store.members set ∨ Enters known given set x := by
  induction updates with
  | refl => exact .inl member
  | tail _ update induction =>
      rcases update.mem_members member with isOld | enters
      · exact induction isOld
      · exact .inr enters

theorem find_of_owner {set : Collection} (isOwner : store.owner x = some set) :
    store.find set.id = some set := by
  obtain ⟨id, _, isFound⟩ := Option.bind_eq_some_iff.mp isOwner
  rw [id_of_find isFound, isFound]

theorem owner_eq_some_iff {set : Collection} (isFound : store.find set.id = some set) :
    store.owner x = some set ↔ x.owner = some set.id := by
  constructor
  · intro isOwner
    obtain ⟨id, isOwned, found⟩ := Option.bind_eq_some_iff.mp isOwner
    rw [id_of_find found, isOwned]
  · intro isOwned
    rw [owner, isOwned, Option.bind_some, isFound]

theorem contains_naturals_iff {set : NumberSet} (isNaturals : set.kind = .naturals) :
    store.contains (.number set) x = true ↔ NumberKind.naturals.isLiteral x.name = true ∨
      store.belongs set x = true ∨ (store.members set.id).contains x = true := by
  cases set with
  | naturals id =>
      simp [contains, containsNumber, NumberSet.chain, containsAtLevel, NumberSet.kind, or_assoc]
  | rationals id naturals => cases isNaturals
  | reals id rationals naturals => cases isNaturals

end Store

namespace Run

variable {run : Run} {set : SetId} {x : Object}

/-- A call gave the object to the set. -/
def Inserted (run : Run) (set : SetId) (x : Object) : Prop :=
  ∃ entry ∈ run.history, entry.call.Gives set x

/-- Images are called after their functions and arguments. -/
def IsImageName (name : String) : Prop :=
  ∃ function argument : String, name = function ++ "(" ++ argument ++ ")"

theorem read_of_isImageName {name : String} (isImage : IsImageName name) : read name = none := by
  obtain ⟨function, argument, rfl⟩ := isImage
  have isBracket : '(' ∈ (function ++ "(" ++ argument ++ ")").toList := by simp
  exact Numeral.read_eq_none_of_mem isBracket rfl (by decide)

theorem Inserted.after (inserted : run.Inserted set x) (call : Call) :
    (run.after call).Inserted set x := by
  obtain ⟨entry, isEntry, gives⟩ := inserted
  exact ⟨entry, List.mem_cons_of_mem _ isEntry, gives⟩

/-- Members have been inserted or are images. -/
theorem Reachable.mem_members (reachable : run.Reachable) (member : x ∈ run.store.members set) :
    run.Inserted set x ∨ IsImageName x.name := by
  induction reachable with
  | start => cases member
  | @after run call reachable held induction =>
      cases forms : call.formsSets with
      | true =>
          rw [(unchanged_of_forms run forms).1] at member
          exact (induction member).imp_left (·.after call)
      | false =>
          rcases (reachable.registered.updates forms held).mem_members member with isOld | enters
          · exact (induction isOld).imp_left (·.after call)
          · cases enters with
            | given gives => exact .inl ⟨_, List.mem_cons_self, gives⟩
            | @image id name domain range argument _ _ isName => exact .inr ⟨name, _, isName⟩
  | release isKept _ induction => exact induction member

/-- A numeral is only a member if an equal object has been inserted. -/
theorem Reachable.inserted_of_numeral (reachable : run.Reachable) {q : Rat}
    (isRead : read x.name = some q) (isMember : (run.store.members set).contains x = true) :
    ∃ y, run.Inserted set y ∧ (x == y) = true := by
  obtain ⟨y, member, equal⟩ := List.contains_iff_exists_mem_beq.mp isMember
  rcases reachable.mem_members member with inserted | isImage
  · exact ⟨y, inserted, equal⟩
  · rw [Object.name_of_key (Object.beq_iff_key.mp equal), read_of_isImageName isImage] at isRead
    cases isRead

/-- A numeral that belongs to no set is among the naturals only if it is written as one. -/
theorem Reachable.contains_naturals_iff_isLiteral (reachable : run.Reachable) {set : NumberSet}
    (isNaturals : set.kind = .naturals) {q : Rat} (isRead : read x.name = some q)
    (unowned : NumberKind.naturals.isLiteral x.name = false → x.owner = none)
    (noneEqual : ∀ y, run.Inserted set.id y → (x == y) = false) :
    run.store.contains (.number set) x = true ↔
      NumberKind.naturals.isLiteral x.name = true := by
  rw [Store.contains_naturals_iff isNaturals]
  refine ⟨fun contains => ?_, .inl⟩
  by_contra notLiteral
  -- It would have to belong to the set or be one of its members, but neither can be.
  rcases contains with isLiteral | belongs | isMember
  · exact notLiteral isLiteral
  · simp [Store.belongs, Store.owner, unowned (Bool.eq_false_iff.mpr notLiteral)] at belongs
  · obtain ⟨y, inserted, equal⟩ := reachable.inserted_of_numeral isRead isMember
    rw [noneEqual y inserted] at equal
    cases equal

end Run

/-! ## Steps from the naturals -/

namespace Kernel

variable {store : Store} {x y : Object} {set : NumberSet}

theorem owner_resultIn_of_numerals (isNaturals : set.kind = .naturals) {a b : Rat}
    (left : read x.name = some a) (right : read y.name = some b) (operation : Operation)
    (created : Nat) :
    ((resultIn operation x y set created).owner = some set.id ↔
      ∃ n : Nat, operation.value a b = n) ∧
    ((¬∃ n : Nat, operation.value a b = n) →
      (resultIn operation x y set created).owner = none) := by
  have leaves := leavesNaturals_write_iff (operation.value a b)
  rw [resultIn, Operation.resultName_of_numerals left right, isNaturals]
  dsimp only
  split
  · rename_i isLeaving
    simp [leaves.mp isLeaving]
  · rename_i isStaying
    simp [not_not.mp (mt leaves.mpr isStaying)]

/-- Between numerals, the result of a step belongs to the naturals exactly if the value is a
natural number. With a symbol it always does. -/
structure StaysByValue (value : Rat → Rat → Rat) (set : NumberSet) (x y r : Object)
    (after : Store) : Prop where
  ofNumerals {a b : Rat} : read x.name = some a → read y.name = some b →
    read r.name = some (value a b) ∧
    (after.owner r = some (.number set) ↔ ∃ n : Nat, value a b = n) ∧
    ((¬∃ n : Nat, value a b = n) → r.owner = none) ∧
    ∀ run : Run, run.Reachable → (∀ z, run.Inserted set.id z → (r == z) = false) →
      (run.store.contains (.number set) r = true ↔ ∃ n : Nat, value a b = n)
  ofSymbol : read x.name = none ∨ read y.name = none →
    read r.name = none ∧ after.owner r = some (.number set)

theorem staysByValue_of_calculate (isOwner : store.owner x = some (.number set))
    (isNaturals : set.kind = .naturals) (y : Object) (operation : Operation) :
    ∃ r after, outcome (calculate operation x y) store = (.ok r, after) ∧
      StaysByValue operation.value set x y r after := by
  have isFound := Store.find_of_owner isOwner
  have ok := outcome_calculate isOwner operation y
  refine ⟨_, _, ok, fun {a b} left right => ?_, fun isSymbolic => ?_⟩
  · have isName := name_of_calculate left right ok
    have isRead := (Object.writes_of_name isName).1
    have isNatural := Numeral.isLiteral_write_iff (operation.value a b)
    obtain ⟨isOwned, unowned⟩ :=
      owner_resultIn_of_numerals isNaturals left right operation store.created
    refine ⟨isRead, (Store.owner_eq_some_iff isFound).trans isOwned, unowned,
      fun run reachable noneEqual => ?_⟩
    rw [reachable.contains_naturals_iff_isLiteral isNaturals isRead ?_ noneEqual, isName,
      isNatural]
    intro notLiteral
    rw [isName] at notLiteral
    exact unowned (mt isNatural.mpr (Bool.eq_false_iff.mp notLiteral))
  · have isRead := Operation.read_resultName_of_symbol isSymbolic operation
    refine ⟨isRead, (Store.owner_eq_some_iff isFound).mpr ?_⟩
    simp [resultIn, leavesNaturals, isRead, Collection.id]

/-- From an object of the naturals, a step between numerals leaves the naturals exactly if its
value is no natural number. A step with a symbol never does. -/
theorem calculate_naturals (isOwner : store.owner x = some (.number set))
    (isNaturals : set.kind = .naturals) (y : Object) :
    (∃ r after, outcome (calculate .plus x y) store = (.ok r, after) ∧
      StaysByValue (fun a b => a + b) set x y r after) ∧
    ∃ r after, outcome (calculate .minus x y) store = (.ok r, after) ∧
      StaysByValue (fun a b => a - b) set x y r after :=
  ⟨staysByValue_of_calculate isOwner isNaturals y .plus,
    staysByValue_of_calculate isOwner isNaturals y .minus⟩

/-! The sample has `3` and `5` among the naturals in other notations, and the symbol `n`. -/

namespace Sample

open Run.Sample

def three : Object := ⟨1, "6/2", some 1, []⟩

def five : Object := ⟨2, "5.0", some 1, []⟩

def symbol : Object := ⟨3, "n", some 1, []⟩

def spelled : Run :=
  ((counted.after (.objectIn "6/2" lowest)).after (.objectIn "5.0" lowest)).after
    (.objectIn "n" lowest)

def lowered : Run :=
  spelled.after (.calculate .minus three five)

theorem reachable_lowered : lowered.Reachable := by
  refine .after (.after (.after (.after reachable_counted (List.forall_mem_singleton.mpr ?_))
    (List.forall_mem_singleton.mpr ?_)) (List.forall_mem_singleton.mpr ?_))
    (List.forall_mem_cons.mpr ⟨?_, List.forall_mem_singleton.mpr ?_⟩)
  · exact .result (List.mem_of_getElem? (i := 0) rfl) (List.mem_of_getElem? (i := 0) rfl)
  · exact .result (List.mem_of_getElem? (i := 1) rfl) (List.mem_of_getElem? (i := 0) rfl)
  · exact .result (List.mem_of_getElem? (i := 2) rfl) (List.mem_of_getElem? (i := 0) rfl)
  · exact .result (List.mem_of_getElem? (i := 2) rfl) List.mem_cons_self
  · exact .result (List.mem_of_getElem? (i := 1) rfl) List.mem_cons_self

theorem not_inserted_lowered (set : SetId) (x : Object) : ¬lowered.Inserted set x := by
  rintro ⟨entry, isEntry, target, isInsertion, _⟩
  have isCall : entry.call ∈ lowered.history.map (·.call) := List.mem_map_of_mem isEntry
  rw [isInsertion] at isCall
  simp [lowered, spelled, counted, Run.after, Run.start] at isCall

end Sample

open Run.Sample Sample in
theorem calculate_naturals_lowered :
    (∃ r after, outcome (calculate .minus three five) spelled.store = (.ok r, after) ∧
      read r.name = some (3 - 5) ∧ r.owner = none ∧
      lowered.store.contains lowest r = false) ∧
    (∃ r after, outcome (calculate .plus three five) spelled.store = (.ok r, after) ∧
      read r.name = some (3 + 5) ∧ after.owner r = some lowest ∧
      lowered.store.contains lowest r = true) ∧
    ∃ r after, outcome (calculate .minus symbol five) spelled.store = (.ok r, after) ∧
      read r.name = none ∧ after.owner r = some lowest := by
  have isThree : read three.name = some 3 := by decide +kernel
  have isFive : read five.name = some 5 := by decide +kernel
  have noneEqual : ∀ {r : Object} (z : Object), lowered.Inserted 1 z → (r == z) = false :=
    fun z inserted => absurd inserted (not_inserted_lowered 1 z)
  obtain ⟨⟨sum, afterSum, sumOk, sumStays⟩, ⟨rest, afterRest, restOk, restStays⟩⟩ :=
    calculate_naturals (show spelled.store.owner three = some lowest from rfl) rfl five
  refine ⟨?_, ?_, ?_⟩
  · obtain ⟨isRead, _, unowned, contained⟩ := restStays.ofNumerals isThree isFive
    have notNatural : ¬∃ n : Nat, (3 - 5 : Rat) = n := by
      rintro ⟨n, isNatural⟩
      have isNegative : (3 - 5 : Rat).num = -2 := by decide +kernel
      rw [isNatural, Rat.num_natCast] at isNegative
      omega
    exact ⟨rest, afterRest, restOk, isRead, unowned notNatural,
      Bool.eq_false_iff.mpr (mt (contained lowered reachable_lowered noneEqual).mp notNatural)⟩
  · obtain ⟨isRead, isOwned, _, contained⟩ := sumStays.ofNumerals isThree isFive
    have isNatural : ∃ n : Nat, (3 + 5 : Rat) = n := ⟨8, by decide +kernel⟩
    exact ⟨sum, afterSum, sumOk, isRead, isOwned.mpr isNatural,
      (contained lowered reachable_lowered noneEqual).mpr isNatural⟩
  · obtain ⟨_, r, after, ok, stays⟩ := calculate_naturals
      (show spelled.store.owner symbol = some lowest from rfl) rfl five
    exact ⟨r, after, ok, stays.ofSymbol (.inl (by decide +kernel))⟩

end Kernel

end Deduction
