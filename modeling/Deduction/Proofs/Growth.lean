import Deduction.Proofs.Membership
import Deduction.Proofs.Success

/-! # Growth

As long as no set ceases to exist, calls only add to the store: new members come after
the others, images stay what they are, and a set that was found is found again. So what
lies in a set remains there, and what was accepted because of that remains accepted. -/

namespace Deduction

open Session (Item)

namespace Store

variable {store middle later : Store}

/-- The later store has all that the earlier one has. -/
structure Grows (store later : Store) : Prop where
  members (set : SetId) : store.members set <+: later.members set
  images {function : SetId} {input : Nat} {image : Object} :
    store.images function input = some image → later.images function input = some image
  found {id : SetId} {set : Collection} : store.find id = some set → later.find id = some set

theorem Grows.refl (store : Store) : store.Grows store :=
  ⟨fun _ => List.prefix_rfl, id, id⟩

theorem Grows.trans (first : store.Grows middle) (second : middle.Grows later) :
    store.Grows later where
  members set := (first.members set).trans (second.members set)
  images isImage := second.images (first.images isImage)
  found isFound := second.found (first.found isFound)

theorem Update.grows {known : Collection → Prop} {given : SetId → Object → Prop}
    (update : store.Update known given later) : store.Grows later := by
  have found : ∀ {id : SetId} {set : Collection},
      store.find id = some set → later.find id = some set := by
    intro id set isFound
    rw [find, update.sets.1]
    exact isFound
  cases update with
  | @member set x _ isNew =>
      refine ⟨fun other => ?_, id, found⟩
      by_cases same : other = set
      · rw [same, members_addMember_same]
        exact List.prefix_append _ _
      · exact members_addMember_other store x same ▸ List.prefix_rfl
  | @image id name domain range x y isKnown isNew _ _ _ =>
      refine ⟨fun _ => List.prefix_rfl, fun {function input image} isImage => ?_, found⟩
      have different : ¬(function = id ∧ input = x.id) := by
        rintro ⟨rfl, rfl⟩
        rw [isNew] at isImage
        cases isImage
      rw [images_setImage_other store y different]
      exact isImage
  | _ => exact ⟨fun _ => List.prefix_rfl, id, found⟩

theorem Updates.grows {known : Collection → Prop} {given : SetId → Object → Prop}
    (updates : store.Updates known given later) : store.Grows later := by
  induction updates with
  | refl => exact .refl store
  | tail _ update induction => exact induction.trans update.grows

/-- New sets hide no others if their numbers are new. -/
theorem grows_of_formed (sets : List Collection) (living : later.living = sets ++ store.living)
    (sameMembers : later.members = store.members) (sameImages : later.images = store.images)
    (fresh : ∀ set ∈ sets, ∀ old ∈ store.living, set.id ≠ old.id) : store.Grows later where
  members set := sameMembers ▸ List.prefix_rfl
  images isImage := by rwa [sameImages]
  found := by
    intro id set isFound
    have isId : set.id = id := id_of_find isFound
    have noneNew : sets.find? (fun other => other.id == id) = none := by
      simp only [List.find?_eq_none, beq_iff_eq]
      intro new isNew
      rw [← isId]
      exact fresh new isNew set (List.mem_of_find?_eq_some isFound)
    rw [find, living, List.find?_append, noneNew, Option.none_or]
    exact isFound

/-! ## Elements of sets -/

theorem Grows.member (grows : store.Grows later) {set : SetId} {x : Object}
    (isMember : (store.members set).contains x = true) :
    (later.members set).contains x = true := by
  obtain ⟨new, isLater⟩ := grows.members set
  rw [← isLater]
  simp only [List.contains_eq_any_beq, List.any_append] at isMember ⊢
  rw [isMember, Bool.true_or]

theorem Grows.belongs (grows : store.Grows later) {set : NumberSet} {x : Object}
    (belongs : store.belongs set x = true) : later.belongs set x = true := by
  cases isOwner : store.owner x with
  | none =>
      rw [Store.belongs, isOwner] at belongs
      cases belongs
  | some owner =>
      obtain ⟨id, isOwned, isFound⟩ := Option.bind_eq_some_iff.mp isOwner
      have isLater : later.owner x = some owner :=
        Option.bind_eq_some_iff.mpr ⟨id, isOwned, grows.found isFound⟩
      rw [Store.belongs, isOwner] at belongs
      rw [Store.belongs, isLater]
      exact belongs

theorem Grows.containsNumber (grows : store.Grows later) {set : NumberSet} {x : Object}
    (contains : store.containsNumber set x = true) : later.containsNumber set x = true := by
  obtain ⟨level, isLevel, atLevel⟩ := List.any_eq_true.mp contains
  refine List.any_eq_true.mpr ⟨level, isLevel, ?_⟩
  simp only [containsAtLevel, Bool.or_eq_true] at atLevel ⊢
  exact atLevel.imp (Or.imp id grows.belongs) grows.member

mutual

theorem Grows.contains (grows : store.Grows later) : (set : Collection) → {x : Object} →
    store.contains set x = true → later.contains set x = true
  | .plain id name, x, contains => by
      rw [Store.contains] at contains ⊢
      exact grows.member contains
  | .number set, x, contains => by
      rw [Store.contains] at contains ⊢
      exact grows.containsNumber contains
  | .product id name factors, x, contains => by
      rw [Store.contains, Bool.and_eq_true] at contains ⊢
      exact ⟨contains.1, grows.containsEach factors contains.2⟩
  | .function id name domain range mapping, x, contains => by
      rw [Store.contains] at contains
      cases contains

theorem Grows.containsEach (grows : store.Grows later) : (factors : List Collection) →
    {components : List Object} → store.containsEach factors components = true →
    later.containsEach factors components = true
  | [], [], _ => by rw [Store.containsEach]
  | factor :: factors, component :: components, contains => by
      rw [Store.containsEach, Bool.and_eq_true] at contains ⊢
      exact ⟨grows.contains factor contains.1, grows.containsEach factors contains.2⟩
  | [], component :: components, contains => by cases contains
  | factor :: factors, [], contains => by cases contains

end

theorem Grows.domain (grows : store.Grows later) {bound : Object} {set : Collection}
    (isDomain : store.domain bound = .ok (some set)) : later.domain bound = .ok (some set) := by
  unfold Store.domain at isDomain ⊢
  split at isDomain
  · cases isDomain
  · split at isDomain
    · rename_i isFound
      cases isDomain
      rw [grows.found isFound]
    · cases isDomain

theorem Grows.admits (grows : store.Grows later) {bound x : Object}
    (admits : store.Admits bound x) : later.Admits bound x := by
  refine admits.imp_right ?_
  rintro ⟨set, isDomain, contains⟩
  exact ⟨set, grows.domain isDomain, grows.contains set contains⟩

end Store

/-! ## Later runs -/

namespace Run

variable {run later : Run} {call : Call}

/-- The later run results from further calls, and no set ceased to exist in between. -/
inductive Continues (run : Run) : Run → Prop
  | refl : Continues run run
  | after {later : Run} {call : Call} : Continues run later →
      (∀ item ∈ call.operands, later.Holds item) → Continues run (later.after call)

theorem Continues.reachable (continues : run.Continues later) (reachable : run.Reachable) :
    later.Reachable := by
  induction continues with
  | refl => exact reachable
  | after _ held induction => exact .after induction held

theorem unchanged_of_forms (run : Run) (forms : call.formsSets = true) :
    (run.after call).store.members = run.store.members ∧
      (run.after call).store.images = run.store.images := by
  cases call with
  | plainSet name => exact ⟨rfl, rfl⟩
  | productSet name factors => exact ⟨rfl, rfl⟩
  | functionSet name domain range mapping => exact ⟨rfl, rfl⟩
  | numberSets => exact ⟨rfl, rfl⟩
  | _ => cases forms

theorem Registered.grows_of_forms (registered : run.Registered) (forms : call.formsSets = true) :
    run.store.Grows (run.after call).store := by
  have fresh : ∀ {number : Nat}, run.store.formed < number →
      ∀ old ∈ run.store.living, number ≠ old.id := by
    intro number isNew old member
    have counted := registered.counted old (registered.living old member)
    exact Nat.ne_of_gt (Nat.lt_of_le_of_lt counted isNew)
  have next : run.store.formed < run.store.formed + 1 := Nat.lt_succ_self _
  obtain ⟨sameMembers, sameImages⟩ := unchanged_of_forms run forms
  cases call with
  | plainSet name =>
      exact Store.grows_of_formed [.plain (run.store.formed + 1) name] rfl sameMembers sameImages
        (List.forall_mem_singleton.mpr (fresh next))
  | productSet name factors =>
      exact Store.grows_of_formed [.product (run.store.formed + 1) name factors] rfl sameMembers
        sameImages (List.forall_mem_singleton.mpr (fresh next))
  | functionSet name domain range mapping =>
      exact Store.grows_of_formed [.function (run.store.formed + 1) name domain range mapping]
        rfl sameMembers sameImages (List.forall_mem_singleton.mpr (fresh next))
  | numberSets =>
      let naturals := run.store.formed + 1
      refine Store.grows_of_formed [.number (.reals (naturals + 2) (naturals + 1) naturals),
        .number (.rationals (naturals + 1) naturals), .number (.naturals naturals)] rfl
        sameMembers sameImages ?_
      simp only [List.forall_mem_cons]
      refine ⟨fresh ?_, fresh ?_, fresh next, fun _ member => nomatch member⟩
      · exact Nat.lt_add_of_pos_right (by decide : 0 < 3)
      · exact Nat.lt_add_of_pos_right (by decide : 0 < 2)
  | _ => cases forms

theorem Registered.grows_after (registered : run.Registered)
    (held : ∀ item ∈ call.operands, run.Holds item) :
    run.store.Grows (run.after call).store := by
  cases forms : call.formsSets with
  | true => exact registered.grows_of_forms forms
  | false => exact (registered.updates forms held).grows

theorem Continues.grows (continues : run.Continues later) (reachable : run.Reachable) :
    run.store.Grows later.store := by
  induction continues with
  | refl => exact .refl run.store
  | after continues held induction =>
      exact induction.trans ((continues.reachable reachable).registered.grows_after held)

end Run

/-! ## Accepted elements -/

namespace Kernel

theorem exists_universalResolution_iff (all : Proof) (y : Object) (store : Store) :
    (∃ proof, (outcome (universalResolution all y) store).1 = .ok proof) ↔
      ∃ x body, all.conclusion = .quantified .universal x body ∧ store.Admits x y := by
  constructor
  · rintro ⟨proof, ok⟩
    have issues := ok_of_universalResolution (Prod.ext ok rfl)
    obtain ⟨yields, _, _⟩ := issues
    generalize proof.conclusion = conclusion at yields
    cases yields with
    | universalResolution isUniversal admits => exact ⟨_, _, isUniversal, admits⟩
  · rintro ⟨x, body, isUniversal, admits⟩
    obtain ⟨proof, after, ok, _, _⟩ := proves_universalResolution isUniversal admits
    exact ⟨proof, congrArg Prod.fst ok⟩

end Kernel

/-- While no set ceases to exist, what lies in a set remains there. So a membership that
was proved can be proved again, and an object stands for a variable that it stood for. -/
theorem Run.Reachable.membership_persists {run later : Run} (reachable : run.Reachable)
    (continues : run.Continues later) :
    (∀ set x, run.store.contains set x = true → later.store.contains set x = true) ∧
      (∀ p, (∃ proof, (Kernel.outcome (Kernel.proveMembership p) run.store).1 = .ok proof) →
        ∃ proof, (Kernel.outcome (Kernel.proveMembership p) later.store).1 = .ok proof) ∧
      ∀ all y,
        (∃ proof, (Kernel.outcome (Kernel.universalResolution all y) run.store).1 = .ok proof) →
        ∃ proof, (Kernel.outcome (Kernel.universalResolution all y) later.store).1 = .ok proof := by
  have grows := continues.grows reachable
  refine ⟨fun set _ => grows.contains set, fun p => ?_, fun all y => ?_⟩
  · rw [Kernel.exists_membership_iff, Kernel.exists_membership_iff]
    rintro ⟨x, set, isMember, contains⟩
    exact ⟨x, set, isMember, grows.contains set contains⟩
  · rw [Kernel.exists_universalResolution_iff, Kernel.exists_universalResolution_iff]
    rintro ⟨x, body, isUniversal, admits⟩
    exact ⟨x, body, isUniversal, grows.admits admits⟩

namespace Run

/-- A third set `S` is formed, and the element of the first one is inserted into the second. -/
def Sample.extended : Run :=
  (Sample.populated.after (.plainSet "S")).after (.insert Sample.second Sample.ofFirst)

theorem Sample.continues_extended : Sample.populated.Continues Sample.extended := by
  refine .after (.after .refl fun _ member => nomatch member) ?_
  refine List.forall_mem_cons.mpr ⟨?_, List.forall_mem_singleton.mpr ?_⟩
  · exact .result (List.mem_of_getElem? (i := 14) rfl) List.mem_cons_self
  · exact .result (List.mem_of_getElem? (i := 11) rfl) List.mem_cons_self

theorem Reachable.membership_persists_extended :
    Sample.populated.Reachable ∧ Sample.populated.Continues Sample.extended ∧
      Sample.populated.store.contains Sample.squares Sample.pair = true ∧
      Sample.extended.store.contains Sample.squares Sample.pair = true ∧
      ∃ proof, (Kernel.outcome (Kernel.proveMembership (.member Sample.number Sample.naturals))
        Sample.extended.store).1 = .ok proof := by
  have persists :=
    Sample.reachable_populated.membership_persists Sample.continues_extended
  exact ⟨Sample.reachable_populated, Sample.continues_extended, rfl,
    persists.1 Sample.squares Sample.pair rfl, persists.2.1 _ ⟨_, rfl⟩⟩

end Run

end Deduction
