import Deduction.Proofs.Images
import Deduction.Proofs.Readability

/-! # Application as a map

Objects are equal by name, but the image of an object is looked up by its number. Since the
objects of a run are determined by their numbers, an image that is found is called after the
object it is found for, also if a composite had it recorded. So a function on demand maps
inputs of the same text to equal images, and others to unequal ones. -/

namespace Deduction

open Session (Item)
open Kernel

/-! ## Keys -/

namespace Store

variable {known : Collection → Prop} {roster later : List Object} {store after : Store}

/-- A recorded image is called after the function and after the object of its key. -/
def Keyed (known : Collection → Prop) (roster : List Object) (store : Store) : Prop :=
  ∀ id input image, store.images id input = some image →
    ∃ name domain range x, known (.function id name domain range .onDemand) ∧ x ∈ roster ∧
      x.id = input ∧ image.name = name ++ "(" ++ x.text ++ ")"

theorem Keyed.mono {known' : Collection → Prop} (keyed : store.Keyed known roster)
    (same : after.images = store.images) (imp : ∀ set, known set → known' set)
    (advances : roster <+: later) : after.Keyed known' later := by
  intro id input image isImage
  rw [same] at isImage
  rcases keyed id input image isImage with ⟨name, domain, range, x, isKnown, member, isKey, isName⟩
  exact ⟨name, domain, range, x, imp _ isKnown, advances.subset member, isKey, isName⟩

theorem Keyed.setImage (keyed : store.Keyed known roster) {id : SetId} {name : String}
    {domain range : Collection} (isKnown : known (.function id name domain range .onDemand))
    {x image : Object} (member : x ∈ roster) (isName : image.name = name ++ "(" ++ x.text ++ ")") :
    (store.setImage id x.id image).Keyed known roster := by
  intro function input other isImage
  by_cases same : function = id ∧ input = x.id
  · rcases same with ⟨rfl, rfl⟩
    rw [images_setImage_same] at isImage
    cases isImage
    exact ⟨name, domain, range, x, isKnown, member, rfl, isName⟩
  · rw [images_setImage_other _ _ same] at isImage
    exact keyed function input other isImage

end Store

namespace Kernel

variable {known : Collection → Prop} {roster : List Object} {x : Object}

/-- The operation keeps to created objects, and the images keyed by these. -/
def KeepsKeys (known : Collection → Prop) (roster : List Object) (action : Kernel Object) : Prop :=
  ∀ store present, roster <+: present → store.Lists present → store.Keyed known present →
    ∃ later, present <+: later ∧ (outcome action store).2.Lists later ∧
      (outcome action store).2.Keyed known later ∧
      ∀ y, (outcome action store).1 = .ok y → y.Within (· ∈ later)

theorem keepsKeys_of_silent {action : Kernel Object}
    (keeps : Keeps roster action fun later y => y.Within (· ∈ later))
    (silent : ∀ store, (outcome action store).2.images = store.images) :
    KeepsKeys known roster action := by
  intro store present le lists keyed
  rcases keeps.lists le lists with ⟨objects, _, lists', returns⟩
  have advances := List.prefix_append present objects
  exact ⟨_, advances, lists', keyed.mono (silent store) (fun _ => id) advances, returns⟩

theorem keepsKeys_bind {action : Kernel Object} {next : Object → Kernel Object}
    (first : KeepsKeys known roster action)
    (second : ∀ {later y}, roster <+: later → y.Within (· ∈ later) →
      KeepsKeys known later (next y)) : KeepsKeys known roster (action >>= next) := by
  intro store present le lists keyed
  rcases first store present le lists keyed with ⟨later, advances, lists', keyed', returns⟩
  rcases performed : outcome action store with ⟨fault | y, middle⟩
  · rw [performed] at lists' keyed'
    rw [outcome_bind_of_error performed]
    exact ⟨later, advances, lists', keyed', fun _ ok => nomatch ok⟩
  · rw [performed] at lists' keyed' returns
    rw [outcome_bind_of_ok performed]
    rcases second (le.trans advances) (returns y rfl) middle later (List.prefix_refl later) lists'
      keyed' with ⟨last, advances', kept⟩
    exact ⟨last, advances.trans advances', kept⟩

theorem keepsKeys_image {function : SetId} {name : String} {domain range : Collection}
    (isKnown : known (.function function name domain range .onDemand)) (member : x ∈ roster) :
    KeepsKeys known roster (image function name domain range x) := by
  intro store present le lists keyed
  rcases (keeps_image function name domain range x).lists le lists with
    ⟨objects, _, lists', returns⟩
  have advances := List.prefix_append present objects
  refine ⟨_, advances, lists', ?_, returns⟩
  by_cases contains : store.contains domain x = true
  · cases isImage : store.images function x.id with
    | none =>
        rw [outcome_image_of_none contains isImage]
        have supplied := keyed.mono (store.images_supplied name range x) (fun _ => id) advances
        exact supplied.setImage isKnown (advances.subset (le.subset member)) rfl
    | some y =>
        rw [outcome_image_of_some contains isImage]
        exact keyed.mono rfl (fun _ => id) advances
  · rw [outcome_image_of_outside contains]
    exact keyed.mono rfl (fun _ => id) advances

theorem apply_compose (id : SetId) (name : String) (domain range outer inner : Collection)
    (x : Object) :
    apply (.function id name domain range (.compose outer inner)) x =
      apply inner x >>= apply outer := by
  rw [apply, applyMapping]

/-- A closed form that is no composite records no images. -/
theorem images_apply {mapping : Mapping} (notOnDemand : mapping ≠ .onDemand)
    (noParts : mapping.constituents = []) (id : SetId) (name : String)
    (domain range : Collection) (x : Object) (store : Store) :
    (outcome (apply (.function id name domain range mapping) x) store).2.images =
      store.images := by
  have partsKnown : ∀ part ∈ mapping.constituents, False := by simp [noParts]
  have updates : store.Updates (fun _ => False) (fun _ _ => False)
      (outcome (applyMapping (image id name domain range) mapping x) store).2 :=
    updating_applyMapping (fun _ isKnown => isKnown.elim) mapping partsKnown
      (fun isOnDemand => absurd isOnDemand notOnDemand) x store
  rw [apply]
  exact Store.images_of_updates updates

section Composites

variable {id : SetId} {name : String} {domain range outer inner : Collection}

theorem known_of_composite (closed : ∀ set, known set → ∀ part ∈ set.constituents, known part)
    (isKnown : known (.function id name domain range (.compose outer inner))) :
    known outer ∧ known inner :=
  ⟨closed _ isKnown outer (List.mem_of_getElem? (i := 2) rfl),
    closed _ isKnown inner (List.mem_of_getElem? (i := 3) rfl)⟩

theorem within_of_composite {among : Object → Prop}
    (within : (Collection.function id name domain range (.compose outer inner)).Within among) :
    outer.Within among ∧ inner.Within among :=
  ⟨fun y member => within y (List.mem_append_right _ (List.mem_append_left _ member)),
    fun y member => within y (List.mem_append_right _ (List.mem_append_right _ member))⟩

end Composites

theorem keepsKeys_apply (closed : ∀ set, known set → ∀ part ∈ set.constituents, known part)
    (set : Collection) (isKnown : known set) {roster : List Object} {x : Object}
    (setWithin : set.Within (· ∈ roster)) (xWithin : x.Within (· ∈ roster)) :
    KeepsKeys known roster (apply set x) := by
  have keeps := keeps_apply set setWithin xWithin
  cases set with
  | function id name domain range mapping =>
      cases mapping with
      | onDemand =>
          rw [apply_onDemand]
          exact keepsKeys_image isKnown xWithin.isAmong
      | compose outer inner =>
          have partsKnown := known_of_composite closed isKnown
          have partsWithin := within_of_composite setWithin
          rw [apply_compose]
          apply keepsKeys_bind (keepsKeys_apply closed inner partsKnown.2 partsWithin.2 xWithin)
          intro later y le yWithin
          exact keepsKeys_apply closed outer partsKnown.1 (partsWithin.1.mono le.subset) yWithin
      | _ => exact keepsKeys_of_silent keeps (images_apply (by simp) rfl id name domain range x)
  | _ => exact keepsKeys_of_silent keeps fun store => rfl
termination_by sizeOf set

/-! ## Applications -/

/-- Applying a function to an object maps `x` to `image` under `function`, either as such or in
a part of a composite. -/
inductive Involves (function : Collection) (x image : Object) :
    Collection → Object → Store → Prop
  | self {store after : Store} :
      outcome (apply function x) store = (.ok image, after) →
      Involves function x image function x store
  | inner {id : SetId} {name : String} {domain range outer inner : Collection} {y : Object}
      {store : Store} :
      Involves function x image inner y store →
      Involves function x image (.function id name domain range (.compose outer inner)) y store
  | outer {id : SetId} {name : String} {domain range outer inner : Collection} {y z : Object}
      {store middle : Store} :
      outcome (apply inner y) store = (.ok z, middle) →
      Involves function x image outer z middle →
      Involves function x image (.function id name domain range (.compose outer inner)) y store

/-- Whether the image is new or was recorded, it is called after the function and the object. -/
theorem Involves.name_eq (closed : ∀ set, known set → ∀ part ∈ set.constituents, known part)
    (unique : ∀ s t, known s → known t → s.id = t.id → s = t) {id : SetId} {name : String}
    {domain range set : Collection} {x image y : Object} {store : Store}
    (involves : Involves (.function id name domain range .onDemand) x image set y store)
    (isKnown : known set) (setWithin : set.Within (· ∈ roster)) (yWithin : y.Within (· ∈ roster))
    (lists : store.Lists roster) (keyed : store.Keyed known roster) :
    image.name = name ++ "(" ++ x.text ++ ")" := by
  induction involves generalizing roster with
  | @self store after ok =>
      rw [apply_onDemand] at ok
      by_cases contains : store.contains domain x = true
      · cases isImage : store.images id x.id with
        | none =>
            rw [outcome_image_of_none contains isImage] at ok
            cases ok
            rfl
        | some recorded =>
            rw [outcome_image_of_some contains isImage] at ok
            cases ok
            rcases keyed id x.id image isImage with
              ⟨name', domain', range', x', isKnown', member, isKey, isName⟩
            cases unique _ _ isKnown' isKnown rfl
            cases lists.numbered.eq_of_id member yWithin.isAmong isKey
            exact isName
      · rw [outcome_image_of_outside contains] at ok
        cases ok
  | inner _ induction =>
      exact induction (known_of_composite closed isKnown).2 (within_of_composite setWithin).2
        yWithin lists keyed
  | @outer _ _ _ _ outer inner y z store middle performed _ induction =>
      have partsKnown := known_of_composite closed isKnown
      have partsWithin := within_of_composite setWithin
      rcases keepsKeys_apply closed inner partsKnown.2 partsWithin.2 yWithin store roster
        (List.prefix_refl roster) lists keyed with ⟨later, advances, lists', keyed', returns⟩
      rw [performed] at lists' keyed' returns
      exact induction partsKnown.1 (partsWithin.1.mono advances.subset) (returns z rfl) lists'
        keyed'

end Kernel

/-! ## Runs -/

namespace Run

variable {run : Run} {function : Collection} {x image : Object}

theorem store_after_apply (run : Run) (function : Collection) (x : Object) :
    (run.after (.apply function x)).store = (outcome (apply function x) run.store).2 := by
  rcases performed : outcome (apply function x) run.store with ⟨fault | image, after⟩
  · exact (after_of_error (show outcome (Call.apply function x).perform run.store = _ from
      outcome_single_of_error performed)).1
  · exact (after_of_ok (show outcome (Call.apply function x).perform run.store = _ from
      outcome_single_of_ok performed)).1

theorem ok_of_mem_application {item : Item} (member : item ∈ run.results (.apply function x)) :
    ∃ image after, outcome (apply function x) run.store = (.ok image, after) ∧
      item = .object image := by
  rcases ok_of_mem_results member with ⟨items, performed, areResults⟩
  rcases ok_of_single performed with ⟨image, ok, rfl⟩
  rw [areResults] at member
  exact ⟨image, _, ok, List.mem_singleton.mp member⟩

theorem Reachable.exists_keys (reachable : run.Reachable) :
    ∃ roster, run.Lists roster ∧ run.store.Keyed (· ∈ run.formed) roster := by
  induction reachable with
  | start =>
      rcases Reachable.start.exists_roster with ⟨roster, _, lists⟩
      exact ⟨roster, lists, fun _ _ _ isImage => nomatch isImage⟩
  | @after run call reachable held induction =>
      rcases induction with ⟨roster, lists, keyed⟩
      by_cases isApplication : ∃ function x, call = .apply function x
      · rcases isApplication with ⟨function, x, rfl⟩
        have registered := reachable.registered
        have setHeld := held (.set function) List.mem_cons_self
        have xHeld := held (.object x) (List.mem_cons_of_mem _ List.mem_cons_self)
        rcases keepsKeys_apply registered.constituents function (registered.of_held setHeld)
          (lists.within setHeld) (lists.within xHeld) run.store roster (List.prefix_refl roster)
          lists.store keyed with ⟨later, advances, ofStore, keyed', returns⟩
        rw [← store_after_apply] at ofStore keyed'
        refine ⟨later, lists.extend advances ofStore ?_, keyed'.mono rfl
          (fun _ => mem_formed_after) (List.prefix_refl later)⟩
        intro item member
        rcases ok_of_mem_application member with ⟨image, after, ok, rfl⟩
        exact returns image (by rw [ok])
      · have notApplication : ∀ function x, call ≠ .apply function x :=
          fun function x isCall => isApplication ⟨function, x, isCall⟩
        rcases lists.after held with ⟨objects, _, lists'⟩
        exact ⟨_, lists', keyed.mono (images_after notApplication)
          (fun _ => mem_formed_after) (List.prefix_append roster objects)⟩
  | release isKept _ induction =>
      rcases induction with ⟨roster, lists, keyed⟩
      exact ⟨roster, lists.release isKept, keyed⟩

/-- At some point of the run the function was applied to `x`, perhaps inside a composite, and
returned `image`. -/
inductive Maps (function : Collection) (x image : Object) : Run → Prop
  | now {run : Run} {set : Collection} {y : Object} :
      run.Reachable → (∀ item ∈ (Call.apply set y).operands, run.Holds item) →
      Involves function x image set y run.store →
      Maps function x image (run.after (.apply set y))
  | after {run : Run} {call : Call} :
      Maps function x image run → (∀ item ∈ call.operands, run.Holds item) →
      Maps function x image (run.after call)
  | release {run : Run} (isKept : SetId → Bool) :
      Maps function x image run → Maps function x image (run.release isKept)

/-- What the caller was returned is an image in this sense. -/
theorem Reachable.maps_of_entry (reachable : run.Reachable)
    (isEntry : ⟨.apply function x, [.object image]⟩ ∈ run.history) :
    run.Maps function x image := by
  induction reachable with
  | start => cases isEntry
  | @after run call reachable held induction =>
      rcases List.mem_cons.mp isEntry with isLast | isEarlier
      · rcases Entry.mk.inj isLast with ⟨rfl, areResults⟩
        have member : .object image ∈ run.results (.apply function x) :=
          areResults ▸ List.mem_cons_self
        rcases ok_of_mem_application member with ⟨returned, after, ok, isReturned⟩
        cases isReturned
        exact .now reachable held (.self ok)
      · exact .after (induction isEarlier) held
  | release isKept _ induction => exact .release isKept (induction isEntry)

variable {id : SetId} {name : String} {domain range : Collection}

theorem Maps.name_eq (maps : run.Maps (.function id name domain range .onDemand) x image) :
    image.name = name ++ "(" ++ x.text ++ ")" := by
  induction maps with
  | now reachable held involves =>
      rcases reachable.exists_keys with ⟨roster, lists, keyed⟩
      have registered := reachable.registered
      have setHeld := held _ List.mem_cons_self
      have argumentHeld := held _ (List.mem_cons_of_mem _ List.mem_cons_self)
      exact involves.name_eq registered.constituents (fun _ _ => registered.eq_of_id)
        (registered.of_held setHeld) (lists.within setHeld) (lists.within argumentHeld) lists.store
        keyed
  | after _ _ induction => exact induction
  | release _ _ induction => exact induction

/-- A function on demand is a map that is injective up to the texts of its inputs. -/
theorem Maps.beq_iff_text {y other : Object}
    (ofX : run.Maps (.function id name domain range .onDemand) x image)
    (ofY : run.Maps (.function id name domain range .onDemand) y other) :
    ((image == other) = true ↔ x.text = y.text) ∧
      ((x == y) = true → (image == other) = true) ∧
      image.name = name ++ "(" ++ x.text ++ ")" := by
  have named : ∀ text : String, name ++ "(" ++ text ++ ")" ≠ "" := by
    intro text isEmpty
    simpa using congrArg String.toList isEmpty
  have equal : (image == other) = true ↔ x.text = y.text := by
    rw [Object.beq_iff_name (ofX.name_eq ▸ named x.text) (ofY.name_eq ▸ named y.text),
      ofX.name_eq, ofY.name_eq]
    constructor
    · intro same
      simpa [← String.toList_inj] using same
    · intro same
      rw [same]
  refine ⟨equal, fun same => ?_, ofX.name_eq⟩
  exact equal.mpr (Object.text_of_key (Object.beq_iff_key.mp same))

/-! In the sample the function `f` is applied to two objects `x`, and inside the composite `g`
to an unnamed object and to the image of that. -/

namespace Sample

def twice : Collection := .function 3 "g" carrier carrier (.compose successor successor)

def otherSeed : Object := ⟨3, "x", none, []⟩

def unnamed : Object := ⟨5, "", none, []⟩

def reapplied : Run :=
  (applied.after (.object "x")).after (.apply successor otherSeed)

def prepared : Run :=
  ((reapplied.after (.functionSet "g" carrier carrier (.compose successor successor))).after
    (.object "")).after (.insert carrier unnamed)

def composed : Run :=
  prepared.after (.apply twice unnamed)

def successorOfOther : Object := ⟨4, "f(x)", some 1, []⟩

def successorOfUnnamed : Object := ⟨6, "f(Obj(e_5))", some 1, []⟩

def secondSuccessor : Object := ⟨7, "f(f(Obj(e_5)))", some 1, []⟩

theorem reachable_reapplied : reapplied.Reachable := by
  apply Reachable.after
  · apply Reachable.after reachable_applied
    exact fun _ member => nomatch member
  · refine List.forall_mem_cons.mpr ⟨?_, List.forall_mem_singleton.mpr ?_⟩
    · exact .result (List.mem_of_getElem? (i := 4) rfl) List.mem_cons_self
    · exact .result (List.mem_of_getElem? (i := 0) rfl) List.mem_cons_self

theorem reachable_prepared : prepared.Reachable := by
  apply Reachable.after
  · apply Reachable.after
    · apply Reachable.after reachable_reapplied
      have ofCarrier : reapplied.Holds (.set carrier) :=
        .result (List.mem_of_getElem? (i := 6) rfl) List.mem_cons_self
      have ofSuccessor : reapplied.Holds (.set successor) :=
        .result (List.mem_of_getElem? (i := 5) rfl) List.mem_cons_self
      simp [Call.operands, Mapping.operands, ofCarrier, ofSuccessor]
    · exact fun _ member => nomatch member
  · refine List.forall_mem_cons.mpr ⟨?_, List.forall_mem_singleton.mpr ?_⟩
    · exact .result (List.mem_of_getElem? (i := 8) rfl) List.mem_cons_self
    · exact .result (List.mem_of_getElem? (i := 0) rfl) List.mem_cons_self

theorem held_composed : ∀ item ∈ (Call.apply twice unnamed).operands, prepared.Holds item := by
  refine List.forall_mem_cons.mpr ⟨?_, List.forall_mem_singleton.mpr ?_⟩
  · exact .result (List.mem_of_getElem? (i := 2) rfl) List.mem_cons_self
  · exact .result (List.mem_of_getElem? (i := 1) rfl) List.mem_cons_self

end Sample

open Sample in
theorem Maps.beq_iff_text_composed :
    composed.Maps successor seed successorOfSeed ∧
      composed.Maps successor otherSeed successorOfOther ∧
      composed.Maps successor successorOfUnnamed secondSuccessor ∧
      (successorOfSeed == successorOfOther) = true ∧
      (successorOfSeed == secondSuccessor) = false := by
  have reachable : composed.Reachable := .after reachable_prepared held_composed
  have first : composed.Maps successor seed successorOfSeed :=
    reachable.maps_of_entry (List.mem_of_getElem? (i := 6) rfl)
  have second : composed.Maps successor otherSeed successorOfOther :=
    reachable.maps_of_entry (List.mem_of_getElem? (i := 4) rfl)
  have third : composed.Maps successor successorOfUnnamed secondSuccessor :=
    .now reachable_prepared held_composed (.outer rfl (.self rfl))
  refine ⟨first, second, third, (first.beq_iff_text second).1.mpr rfl, ?_⟩
  apply Bool.eq_false_iff.mpr
  intro equal
  have sameText := (first.beq_iff_text third).1.mp equal
  simp [seed, successorOfUnnamed, Object.text] at sameText

end Run

end Deduction
