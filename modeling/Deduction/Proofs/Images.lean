import Deduction.Proofs.Growth

/-! # Members and images

One application of a function may change the members of another set, since a new image
becomes a member of the range. Functions may share their ranges with other functions and
with their own domains. Over whole runs, members and images nevertheless agree with the
calls that were made, provided that no function is given by a closed form. -/

namespace Deduction

open Session (Item)
open Kernel

/-- The set is no function, or one whose images are created on demand. -/
def Collection.isDefinitionFree : Collection → Bool
  | .function _ _ _ _ .onDemand => true
  | .function _ _ _ _ _ => false
  | _ => true

/-! ## Applications -/

namespace Kernel

variable {α : Type} {store after : Store}

theorem outcome_single_of_ok {wrap : α → Item} {action : Kernel α} {a : α}
    (ok : outcome action store = (.ok a, after)) :
    outcome (single wrap action) store = (.ok [wrap a], after) := by
  rw [single, outcome_bind_of_ok ok]
  rfl

theorem outcome_single_of_error {wrap : α → Item} {action : Kernel α} {fault : Fault}
    (error : outcome action store = (.error fault, after)) :
    outcome (single wrap action) store = (.error fault, after) := by
  rw [single, outcome_bind_of_error error]

theorem apply_onDemand (id : SetId) (name : String) (domain range : Collection) (x : Object) :
    apply (.function id name domain range .onDemand) x = image id name domain range x := by
  rw [apply, applyMapping]

/-- What the application of a function on demand does if it is not refused. -/
inductive Applied (store : Store) (x : Object) : Collection → Object → Store → Prop
  | again {id : SetId} {name : String} {domain range : Collection} {y : Object} :
      store.images id x.id = some y →
      Applied store x (.function id name domain range .onDemand) y store
  | first {id : SetId} {name : String} {domain range : Collection} :
      store.images id x.id = none →
      Applied store x (.function id name domain range .onDemand) (store.newImage name range x)
        (store.imaged id name range x)

theorem outcome_apply_cases {function : Collection} (free : function.isDefinitionFree = true)
    (x : Object) (store : Store) :
    (∃ fault, outcome (apply function x) store = (.error fault, store)) ∨
      ∃ y after, outcome (apply function x) store = (.ok y, after) ∧
        Applied store x function y after := by
  cases function with
  | function id name domain range mapping =>
      cases mapping with
      | onDemand =>
          rw [apply_onDemand]
          by_cases contains : store.contains domain x = true
          · cases found : store.images id x.id with
            | none => exact .inr ⟨_, _, outcome_image_of_none contains found, .first found⟩
            | some y => exact .inr ⟨_, _, outcome_image_of_some contains found, .again found⟩
          · exact .inl ⟨_, outcome_image_of_outside contains⟩
      | _ => cases free
  | _ => exact .inl ⟨_, rfl⟩

end Kernel

/-! ## Updates of members and images -/

namespace Store

variable {store after : Store}

/-- No set has two equal members. -/
def Distinct (store : Store) : Prop :=
  ∀ set, (store.members set).Pairwise fun x y => (x == y) = false

theorem Distinct.addMember (distinct : store.Distinct) {set : SetId} {x : Object}
    (isNew : (store.members set).contains x = false) : (store.addMember set x).Distinct := by
  intro other
  by_cases same : other = set
  · rw [same, members_addMember_same, List.pairwise_append]
    refine ⟨distinct set, List.pairwise_singleton _ x, fun y member z isNewMember => ?_⟩
    rw [List.mem_singleton.mp isNewMember, Object.beq_eq_false_iff_key]
    intro sameKey
    have isMember : (store.members set).contains x = true :=
      List.contains_iff_exists_mem_beq.mpr ⟨y, member, Object.beq_iff_key.mpr sameKey.symm⟩
    rw [isNew] at isMember
    cases isMember
  · rw [members_addMember_other store x same]
    exact distinct other

theorem Distinct.update {known : Collection → Prop} {given : SetId → Object → Prop}
    (distinct : store.Distinct) (update : store.Update known given after) : after.Distinct := by
  cases update with
  | member _ isNew => exact distinct.addMember isNew
  | _ => exact distinct

theorem Distinct.updates {known : Collection → Prop} {given : SetId → Object → Prop}
    (distinct : store.Distinct) (updates : store.Updates known given after) : after.Distinct := by
  induction updates with
  | refl => exact distinct
  | tail _ update induction => exact induction.update update

theorem contains_of_member {set : Collection} {x : Object} (isExtensible : set.isExtensible = true)
    (isMember : (store.members set.id).contains x = true) : store.contains set x = true := by
  cases set with
  | plain id name =>
      rw [Store.contains]
      exact isMember
  | number set =>
      rw [Store.contains]
      refine List.any_eq_true.mpr ⟨set, set.chain_eq_cons ▸ List.mem_cons_self, ?_⟩
      rw [containsAtLevel, show (store.members set.id).contains x = true from isMember,
        Bool.or_true]
  | _ => cases isExtensible

theorem images_of_updates {given : SetId → Object → Prop}
    (updates : store.Updates (fun _ => False) given after) :
    after.images = store.images := by
  induction updates with
  | refl => rfl
  | tail _ update induction =>
      cases update with
      | image isKnown => cases isKnown
      | _ => exact induction

end Store

namespace Run

variable {run later : Run} {call : Call}

theorem distinct_after (registered : run.Registered)
    (held : ∀ item ∈ call.operands, run.Holds item) (distinct : run.store.Distinct) :
    (run.after call).store.Distinct := by
  cases forms : call.formsSets with
  | false => exact distinct.updates (registered.updates forms held)
  | true =>
      rw [Store.Distinct, (unchanged_of_forms run forms).1]
      exact distinct

/-- Images are recorded by applications only. -/
theorem images_after (notApplication : ∀ function x, call ≠ .apply function x) :
    (run.after call).store.images = run.store.images := by
  cases forms : call.formsSets with
  | false =>
      exact Store.images_of_updates (Call.updating_perform forms (fun _ isKnown => isKnown.elim)
        (fun function x isApplication => notApplication function x isApplication) run.store)
  | true => exact (unchanged_of_forms run forms).2

theorem mem_formed_after {set : Collection} (isFormed : set ∈ run.formed) :
    set ∈ (run.after call).formed := by
  rw [formed, after, List.flatMap_cons]
  exact List.mem_append_right _ isFormed

theorem Continues.mem_formed (continues : run.Continues later) {set : Collection}
    (isFormed : set ∈ run.formed) : set ∈ later.formed := by
  induction continues with
  | refl => exact isFormed
  | after _ _ induction => exact mem_formed_after induction

/-! ## Recorded applications -/

/-- An application returned the image of the input. It belongs to the range, as a member if
that is possible. -/
def Returned (run : Run) (id : SetId) (input : Nat) (image : Object) : Prop :=
  ∃ name domain range x, .function id name domain range .onDemand ∈ run.formed ∧
    x.id = input ∧
    ⟨.apply (.function id name domain range .onDemand) x, [.object image]⟩ ∈ run.history ∧
    image.owner = some range.id ∧
    (range.isExtensible = true → (run.store.members range.id).contains image = true)

theorem Returned.after {id : SetId} {input : Nat} {image : Object}
    (returned : run.Returned id input image) (grows : run.store.Grows (run.after call).store) :
    (run.after call).Returned id input image := by
  obtain ⟨name, domain, range, x, isFormed, isInput, isEntry, isOwner, isMember⟩ := returned
  exact ⟨name, domain, range, x, mem_formed_after isFormed, isInput,
    List.mem_cons_of_mem _ isEntry, isOwner,
    fun isExtensible => grows.member (isMember isExtensible)⟩

/-- The images of the store are those that applications returned. -/
structure Recorded (run : Run) : Prop where
  returned {id : SetId} {input : Nat} {image : Object} :
    run.store.images id input = some image → run.Returned id input image
  found {function : Collection} {x image : Object} :
    ⟨.apply function x, [.object image]⟩ ∈ run.history →
    ∃ id name domain range, function = .function id name domain range .onDemand ∧
      run.store.images id x.id = some image

/-- It is enough to look at new images and at what the last call returned. -/
theorem Recorded.extend (recorded : run.Recorded)
    (grows : run.store.Grows (run.after call).store)
    (introduced : ∀ {id input image}, (run.after call).store.images id input = some image →
      run.store.images id input = some image ∨ (run.after call).Returned id input image)
    (answered : ∀ {function x image}, call = .apply function x →
      run.results call = [.object image] →
      ∃ id name domain range, function = .function id name domain range .onDemand ∧
        (run.after call).store.images id x.id = some image) : (run.after call).Recorded where
  returned isImage := by
    rcases introduced isImage with isOld | returned
    · exact (recorded.returned isOld).after grows
    · exact returned
  found isEntry := by
    rcases List.mem_cons.mp isEntry with isNew | isOld
    · obtain ⟨isCall, areResults⟩ := Entry.mk.inj isNew
      exact answered isCall.symm areResults.symm
    · obtain ⟨id, name, domain, range, isFunction, isImage⟩ := recorded.found isOld
      exact ⟨id, name, domain, range, isFunction, grows.images isImage⟩

theorem Recorded.keep (recorded : run.Recorded) (grows : run.store.Grows (run.after call).store)
    (same : (run.after call).store.images = run.store.images)
    (answered : ∀ {function x image}, call = .apply function x →
      run.results call = [.object image] →
      ∃ id name domain range, function = .function id name domain range .onDemand ∧
        run.store.images id x.id = some image) : (run.after call).Recorded :=
  recorded.extend grows (fun isImage => .inl (same ▸ isImage)) (same ▸ answered)

theorem after_of_ok {items : List Item} {after : Store}
    (ok : outcome call.perform run.store = (.ok items, after)) :
    (run.after call).store = after ∧ run.results call = items := by
  rw [Run.after, results, ok]
  exact ⟨rfl, rfl⟩

theorem after_of_error {fault : Fault} {after : Store}
    (error : outcome call.perform run.store = (.error fault, after)) :
    (run.after call).store = after ∧ run.results call = [] := by
  rw [Run.after, results, error]
  exact ⟨rfl, rfl⟩

section Application

variable {id : SetId} {name : String} {domain range : Collection} {x : Object}

/-- The first application to an object records its image and nothing else. -/
theorem Recorded.first (recorded : run.Recorded)
    (grows : run.store.Grows
      (run.after (.apply (.function id name domain range .onDemand) x)).store)
    (isFormed : .function id name domain range .onDemand ∈ run.formed)
    (isStore : (run.after (.apply (.function id name domain range .onDemand) x)).store =
      run.store.imaged id name range x)
    (areResults : run.results (.apply (.function id name domain range .onDemand) x) =
      [.object (run.store.newImage name range x)]) :
    (run.after (.apply (.function id name domain range .onDemand) x)).Recorded := by
  refine recorded.extend grows (fun {function input image} isImage => ?_) ?_
  · rw [isStore, Store.imaged] at isImage
    by_cases same : function = id ∧ input = x.id
    · obtain ⟨rfl, rfl⟩ := same
      rw [Store.images_setImage_same] at isImage
      cases isImage
      refine .inr ⟨name, domain, range, x, mem_formed_after isFormed, rfl, ?_, rfl, ?_⟩
      · rw [← areResults]
        exact List.mem_cons_self
      · rw [isStore]
        exact run.store.contains_supplied name x
    · rw [Store.images_setImage_other _ _ same, Store.images_supplied] at isImage
      exact .inl isImage
  · rintro _ _ image ⟨⟩ isResult
    cases areResults.symm.trans isResult
    refine ⟨id, name, domain, range, rfl, ?_⟩
    rw [isStore, Store.imaged, Store.images_setImage_same]

theorem Recorded.apply (recorded : run.Recorded) {function : Collection}
    (grows : run.store.Grows (run.after (.apply function x)).store)
    (isFormed : function ∈ run.formed) (free : function.isDefinitionFree = true) :
    (run.after (.apply function x)).Recorded := by
  rcases outcome_apply_cases free x run.store with ⟨fault, refused⟩ | ⟨y, after, ok, applied⟩
  · obtain ⟨isStore, noResults⟩ :=
      after_of_error (show outcome (Call.apply function x).perform run.store = _ from
        outcome_single_of_error refused)
    refine recorded.keep grows (congrArg Store.images isStore) fun _ areResults => ?_
    cases noResults.symm.trans areResults
  · obtain ⟨isStore, areResults⟩ :=
      after_of_ok (show outcome (Call.apply function x).perform run.store = _ from
        outcome_single_of_ok ok)
    cases applied with
    | again found =>
        refine recorded.keep grows (congrArg Store.images isStore) ?_
        rintro _ _ image ⟨⟩ isResult
        cases areResults.symm.trans isResult
        exact ⟨_, _, _, _, rfl, found⟩
    | first isNew => exact recorded.first grows isFormed isStore areResults

end Application

theorem Recorded.after (recorded : run.Recorded) (registered : run.Registered)
    (held : ∀ item ∈ call.operands, run.Holds item)
    (free : ∀ set ∈ run.formed, set.isDefinitionFree = true) : (run.after call).Recorded := by
  have grows := registered.grows_after held
  by_cases isApplication : ∃ function x, call = .apply function x
  · obtain ⟨function, x, rfl⟩ := isApplication
    have isFormed : function ∈ run.formed :=
      registered.of_held (held (.set function) List.mem_cons_self)
    exact recorded.apply grows isFormed (free function isFormed)
  · have notApplication : ∀ function x, call ≠ .apply function x :=
      fun function x isCall => isApplication ⟨function, x, isCall⟩
    exact recorded.keep grows (images_after notApplication)
      fun isCall _ => absurd isCall (notApplication _ _)

theorem Reachable.recorded (reachable : run.Reachable)
    (free : ∀ set ∈ run.formed, set.isDefinitionFree = true) : run.Recorded := by
  induction reachable with
  | start =>
      refine ⟨fun isImage => ?_, fun isEntry => ?_⟩
      · cases isImage
      · cases isEntry
  | after reachable held induction =>
      have earlier := fun set isFormed => free set (mem_formed_after isFormed)
      exact (induction earlier).after reachable.registered held earlier
  | release isKept _ induction => exact ⟨(induction free).returned, (induction free).found⟩

theorem Reachable.distinct (reachable : run.Reachable) : run.store.Distinct := by
  induction reachable with
  | start => exact fun _ => List.Pairwise.nil
  | after reachable held induction => exact distinct_after reachable.registered held induction
  | release isKept _ induction => exact induction

/-! ## Whole runs -/

/-- What holds of members and images at every moment of a run. -/
structure WellKept (run : Run) : Prop where
  distinct : run.store.Distinct
  applied {id : SetId} {name : String} {domain range : Collection} {input : Nat}
    {image : Object} : .function id name domain range .onDemand ∈ run.formed →
    run.store.images id input = some image →
    (∃ x, x.id = input ∧
      ⟨.apply (.function id name domain range .onDemand) x, [.object image]⟩ ∈ run.history) ∧
    image.owner = some range.id ∧
    (range.isExtensible = true → run.store.contains range image = true)
  insertRefused {set : Collection} {x : Object} {fault : Fault} {after : Store} :
    outcome (insert set x) run.store = (.error fault, after) → after = run.store
  applyRefused {function : Collection} {x : Object} {fault : Fault} {after : Store} :
    function ∈ run.formed → outcome (Kernel.apply function x) run.store = (.error fault, after) →
    after = run.store

/-- What a later run has from an earlier one. -/
structure Retains (later run : Run) : Prop where
  members (set : SetId) : run.store.members set <+: later.store.members set
  images {function : SetId} {input : Nat} {image : Object} :
    run.store.images function input = some image →
    later.store.images function input = some image
  repeated {function : Collection} {x y image image' : Object} {after : Store} :
    ⟨.apply function x, [.object image]⟩ ∈ run.history → y.id = x.id →
    outcome (Kernel.apply function y) later.store = (.ok image', after) →
    image' = image ∧ after = later.store

theorem Reachable.wellKept (reachable : run.Reachable)
    (free : ∀ set ∈ run.formed, set.isDefinitionFree = true) : run.WellKept where
  distinct := reachable.distinct
  applied := by
    intro id name domain range input image isFormed isImage
    obtain ⟨name', domain', range', x, isFormed', isInput, isEntry, isOwner, isMember⟩ :=
      (reachable.recorded free).returned isImage
    cases reachable.registered.eq_of_id isFormed isFormed' rfl
    exact ⟨⟨x, isInput, isEntry⟩, isOwner,
      fun isExtensible => Store.contains_of_member isExtensible (isMember isExtensible)⟩
  insertRefused := by
    intro set x fault after refused
    by_cases isExtensible : set.isExtensible = true
    · rw [outcome_insert isExtensible] at refused
      cases refused
    · rw [outcome_insert_of_fixed isExtensible] at refused
      cases refused
      rfl
  applyRefused := by
    intro function x fault after isFormed refused
    rcases outcome_apply_cases (free function isFormed) x run.store with
      ⟨_, isError⟩ | ⟨_, _, isOk, _⟩
    · cases isError.symm.trans refused
      rfl
    · cases isOk.symm.trans refused

theorem Continues.retains (continues : run.Continues later) (reachable : run.Reachable)
    (free : ∀ set ∈ later.formed, set.isDefinitionFree = true) : later.Retains run where
  members := (continues.grows reachable).members
  images := (continues.grows reachable).images
  repeated := by
    intro function x y image image' after isEntry sameObject isOk
    have freeBefore : ∀ set ∈ run.formed, set.isDefinitionFree = true :=
      fun set isFormed => free set (continues.mem_formed isFormed)
    obtain ⟨id, name, domain, range, rfl, isImage⟩ :=
      (reachable.recorded freeBefore).found isEntry
    have isStill : later.store.images id y.id = some image :=
      sameObject ▸ (continues.grows reachable).images isImage
    have isFree : (Collection.function id name domain range .onDemand).isDefinitionFree = true :=
      rfl
    rcases outcome_apply_cases isFree y later.store with ⟨_, isError⟩ | ⟨_, _, isOk', applied⟩
    · cases isError.symm.trans isOk
    · cases isOk'.symm.trans isOk
      cases applied with
      | again found =>
          cases found.symm.trans isStill
          exact ⟨rfl, rfl⟩
      | first isNew => cases isNew.symm.trans isStill

/-- Members and images agree with each other and with the calls throughout a run, and none
of them is lost. -/
theorem Reachable.wellKept_and_retains (reachable : run.Reachable)
    (continues : run.Continues later)
    (free : ∀ set ∈ later.formed, set.isDefinitionFree = true) :
    later.WellKept ∧ later.Retains run :=
  ⟨(continues.reachable reachable).wellKept free, continues.retains reachable free⟩

/-! The sample iterates a function from a set to itself, so that each image becomes an
input. -/

namespace Sample

def carrier : Collection := .plain 1 "S"

def successor : Collection := .function 2 "f" carrier carrier .onDemand

def seed : Object := ⟨1, "x", none, []⟩

def successorOfSeed : Object := ⟨2, "f(x)", some 1, []⟩

def seeded : Run :=
  (((start.after (.plainSet "S")).after (.functionSet "f" carrier carrier .onDemand)).after
    (.object "x")).after (.insert carrier seed)

def applied : Run :=
  seeded.after (.apply successor seed)

def iterated : Run :=
  applied.after (.apply successor successorOfSeed)

theorem reachable_applied : applied.Reachable := by
  refine .after (.after (.after (.after (.after .start ?_) ?_) ?_) ?_) ?_
  · exact fun _ member => nomatch member
  · have isHeld : (start.after (.plainSet "S")).Holds (.set carrier) :=
      .result List.mem_cons_self List.mem_cons_self
    exact List.forall_mem_cons.mpr ⟨isHeld, List.forall_mem_singleton.mpr isHeld⟩
  · exact fun _ member => nomatch member
  · refine List.forall_mem_cons.mpr ⟨?_, List.forall_mem_singleton.mpr ?_⟩
    · exact .result (List.mem_of_getElem? (i := 2) rfl) List.mem_cons_self
    · exact .result List.mem_cons_self List.mem_cons_self
  · refine List.forall_mem_cons.mpr ⟨?_, List.forall_mem_singleton.mpr ?_⟩
    · exact .result (List.mem_of_getElem? (i := 2) rfl) List.mem_cons_self
    · exact .result (List.mem_of_getElem? (i := 1) rfl) List.mem_cons_self

theorem continues_iterated : applied.Continues iterated := by
  refine .after .refl (List.forall_mem_cons.mpr ⟨?_, List.forall_mem_singleton.mpr ?_⟩)
  · exact .result (List.mem_of_getElem? (i := 3) rfl) List.mem_cons_self
  · exact .result List.mem_cons_self List.mem_cons_self

end Sample

theorem Reachable.wellKept_and_retains_iterated :
    Sample.applied.Reachable ∧ Sample.applied.Continues Sample.iterated ∧
      (∀ set ∈ Sample.iterated.formed, set.isDefinitionFree = true) ∧
      (Sample.iterated.store.members 1).map Object.name = ["x", "f(x)", "f(f(x))"] ∧
      Sample.iterated.WellKept ∧ Sample.iterated.Retains Sample.applied := by
  have free : ∀ set ∈ Sample.iterated.formed, set.isDefinitionFree = true := by decide
  exact ⟨Sample.reachable_applied, Sample.continues_iterated, free, by decide,
    Sample.reachable_applied.wellKept_and_retains Sample.continues_iterated free⟩

end Run

end Deduction
