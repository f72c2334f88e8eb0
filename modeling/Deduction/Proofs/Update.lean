import Deduction.Proofs.Rules
import Mathlib.Logic.Relation

/-! # Updates

Apart from the formation of sets, all that operations do to the store is to count
objects and proofs, to report events, to add members to sets and to record images. A new
member is either given to its set or the image of an object. No member is added twice and
no image is replaced. -/

namespace Deduction

def Mapping.constituents : Mapping → List Collection
  | compose outer inner => [outer, inner]
  | _ => []

/-- The sets that a set was formed of. -/
def Collection.constituents : Collection → List Collection
  | plain _ _ => []
  | number set => set.chain.tail.map number
  | product _ _ factors => factors
  | function _ _ domain range mapping => domain :: range :: mapping.constituents

namespace Store

/-- What may become a member of a set: what is given to it, and the images of objects under
known functions into it. -/
inductive Enters (known : Collection → Prop) (given : SetId → Object → Prop) :
    SetId → Object → Prop
  | given {set : SetId} {x : Object} : given set x → Enters known given set x
  | image {id : SetId} {name : String} {domain range : Collection} {x y : Object} :
      known (.function id name domain range .onDemand) → y.name = name ++ "(" ++ x.text ++ ")" →
      Enters known given range.id y

/-- An update of the store, where only known functions get new images. A new image is
called after the input, belongs to the range and is a member of it if possible. -/
inductive Update (known : Collection → Prop) (given : SetId → Object → Prop) (store : Store) :
    Store → Prop
  | created {count : Nat} :
      store.created ≤ count → Update known given store { store with created := count }
  | certified : Update known given store { store with certified := store.certified + 1 }
  | reported (events : List Event) :
      Update known given store { store with journal := store.journal ++ events }
  | member {set : SetId} {x : Object} :
      Enters known given set x → (store.members set).contains x = false →
      Update known given store (store.addMember set x)
  | image {id : SetId} {name : String} {domain range : Collection} {x y : Object} :
      known (.function id name domain range .onDemand) → store.images id x.id = none →
      y.name = name ++ "(" ++ x.text ++ ")" → y.owner = some range.id →
      (range.isExtensible = true → (store.members range.id).contains y = true) →
      Update known given store (store.setImage id x.id y)

def Updates (known : Collection → Prop) (given : SetId → Object → Prop) : Store → Store → Prop :=
  Relation.ReflTransGen (Update known given)

variable {known : Collection → Prop} {given : SetId → Object → Prop}

theorem Update.sets {store after : Store} (update : store.Update known given after) :
    after.living = store.living ∧ after.formed = store.formed := by
  cases update <;> exact ⟨rfl, rfl⟩

theorem Updates.sets {store after : Store} (updates : store.Updates known given after) :
    after.living = store.living ∧ after.formed = store.formed := by
  induction updates with
  | refl => exact ⟨rfl, rfl⟩
  | tail _ update induction =>
      exact ⟨update.sets.1.trans induction.1, update.sets.2.trans induction.2⟩

/-! ## Insertions and images -/

/-- The store after an insertion. -/
def inserted (store : Store) (set : Collection) (x : Object) : Store :=
  if (store.members set.id).contains x then store
  else { store with journal := store.journal ++ [Event.inserted x set] }.addMember set.id x

/-- The image that an object gets at the first application of a function. -/
def newImage (store : Store) (name : String) (range : Collection) (x : Object) : Object :=
  ⟨store.created + 1, name ++ "(" ++ x.text ++ ")", some range.id, []⟩

/-- The store after a new image became a member of the range. -/
def supplied (store : Store) (name : String) (range : Collection) (x : Object) : Store :=
  let y := store.newImage name range x
  let reported := { store with
    created := store.created + 1
    journal := store.journal ++ [.imageCreated y range] }
  if range.isExtensible then reported.inserted range y else reported

/-- The store after the first application of a function to an object. -/
def imaged (store : Store) (function : SetId) (name : String) (range : Collection) (x : Object) :
    Store :=
  (store.supplied name range x).setImage function x.id (store.newImage name range x)

theorem updates_inserted (store : Store) {set : Collection} {x : Object}
    (enters : Enters known given set.id x) :
    store.Updates known given (store.inserted set x) := by
  unfold inserted
  split
  · exact .refl
  · rename_i isNew
    exact .tail (.single (.reported [.inserted x set]))
      (.member enters (Bool.eq_false_iff.mpr isNew))

theorem contains_inserted (store : Store) (set : Collection) (x : Object) :
    ((store.inserted set x).members set.id).contains x = true := by
  unfold inserted
  split
  · assumption
  · simp [Object.beq_iff_key]

theorem inserted_setImage (store : Store) (set : Collection) (x : Object) (function : SetId)
    (input : Nat) (y : Object) :
    (store.setImage function input y).inserted set x =
      (store.inserted set x).setImage function input y := by
  unfold inserted
  rw [apply_ite fun after : Store => after.setImage function input y]
  rfl

theorem updates_supplied (store : Store) {id : SetId} {name : String} {domain range : Collection}
    (isKnown : known (.function id name domain range .onDemand)) (x : Object) :
    store.Updates known given (store.supplied name range x) := by
  have reported : store.Updates known given { store with
      created := store.created + 1
      journal := store.journal ++ [.imageCreated (store.newImage name range x) range] } :=
    .tail (.single (.created (Nat.le_succ store.created))) (.reported _)
  unfold supplied
  dsimp only
  split
  · exact reported.trans (updates_inserted _ (.image isKnown rfl))
  · exact reported

theorem images_supplied (store : Store) (name : String) (range : Collection) (x : Object) :
    (store.supplied name range x).images = store.images := by
  unfold supplied inserted
  dsimp only
  split
  · split <;> rfl
  · rfl

theorem contains_supplied (store : Store) (name : String) {range : Collection} (x : Object)
    (isExtensible : range.isExtensible = true) :
    ((store.supplied name range x).members range.id).contains (store.newImage name range x) =
      true := by
  rw [supplied, if_pos isExtensible]
  exact contains_inserted _ range _

theorem updates_imaged {store : Store} {id : SetId} {name : String} {domain range : Collection}
    {x : Object} (isKnown : known (.function id name domain range .onDemand))
    (isNew : store.images id x.id = none) :
    store.Updates known given (store.imaged id name range x) := by
  refine .tail (store.updates_supplied isKnown x) (.image isKnown ?_ rfl rfl ?_)
  · rw [images_supplied, isNew]
  · exact store.contains_supplied name x

end Store

/-! ## Operations made of updates -/

namespace Kernel

variable {α β : Type} {known : Collection → Prop} {given : SetId → Object → Prop}

def Updating (known : Collection → Prop) (given : SetId → Object → Prop) (action : Kernel α) :
    Prop :=
  ∀ store : Store, store.Updates known given (outcome action store).2

theorem updating_pure (a : α) : Updating known given (pure a) :=
  fun _ => .refl

theorem updating_throw (fault : Fault) : Updating known given (throw fault : Kernel α) :=
  fun _ => .refl

theorem updating_liftExcept (attempt : Except Fault α) :
    Updating known given (liftExcept attempt) := by
  cases attempt with
  | error fault => exact updating_throw fault
  | ok a => exact updating_pure a

theorem updating_get : Updating known given get :=
  fun _ => .refl

theorem updating_modifyGet {change : Store → α × Store}
    (update : ∀ store : Store, store.Update known given (change store).2) :
    Updating known given (modifyGet change) :=
  fun store => .single (update store)

theorem updating_bind {action : Kernel α} {next : α → Kernel β}
    (first : Updating known given action)
    (second : ∀ a, Updating known given (next a)) : Updating known given (action >>= next) := by
  intro store
  have updates := first store
  rcases performed : outcome action store with ⟨fault | a, middle⟩
  · rw [performed] at updates
    rw [outcome_bind_of_error performed]
    exact updates
  · rw [performed] at updates
    rw [outcome_bind_of_ok performed]
    exact updates.trans (second a middle)

theorem updating_report (event : Event) : Updating known given (report event) :=
  updating_modifyGet fun _ => .reported [event]

theorem updating_reportAll (events : List Event) : Updating known given (reportAll events) :=
  updating_modifyGet fun _ => .reported events

theorem updating_create (name : String) (owner : Option SetId) (components : List Object) :
    Updating known given (create name owner components) :=
  updating_modifyGet fun store => .created (Nat.le_succ store.created)

theorem updating_literal (numbers : Numbers) (name : String) :
    Updating known given (literal numbers name) := by
  unfold literal
  dsimp only
  split
  · exact updating_bind (updating_create _ _ _) fun _ => updating_pure _
  · exact updating_pure _

theorem outcome_insert {set : Collection} (isExtensible : set.isExtensible = true) (x : Object)
    (store : Store) : outcome (insert set x) store = (.ok (), store.inserted set x) := by
  rw [insert, if_pos isExtensible,
    outcome_bind_of_ok (show outcome get store = (.ok store, store) from rfl), Store.inserted]
  split <;> rfl

theorem outcome_insert_of_fixed {set : Collection} (isFixed : ¬set.isExtensible = true)
    (x : Object) (store : Store) :
    outcome (insert set x) store = (.error (.notExtensible set), store) := by
  rw [insert, if_neg isFixed]
  rfl

theorem updating_insert {set : Collection} {x : Object} (isGiven : given set.id x) :
    Updating known given (insert set x) := by
  intro store
  by_cases isExtensible : set.isExtensible = true
  · rw [outcome_insert isExtensible]
    exact store.updates_inserted (.given isGiven)
  · rw [outcome_insert_of_fixed isExtensible]
    exact .refl

/-! ## Arithmetic and application -/

theorem updating_calculate (operation : Operation) (left right : Object) :
    Updating known given (calculate operation left right) := by
  refine updating_bind updating_get fun store => ?_
  split
  · dsimp only
    split
    · exact updating_create _ _ _
    · exact updating_create _ _ _
  · exact updating_throw _

section Image

variable {function : SetId} {name : String} {domain range : Collection} {x : Object} {store : Store}

theorem outcome_image_of_outside (isOutside : ¬store.contains domain x = true) :
    outcome (image function name domain range x) store = (.error (.notMember x domain), store) := by
  rw [image, outcome_bind_of_ok (show outcome get store = (.ok store, store) from rfl),
    if_neg isOutside]
  rfl

theorem outcome_image_of_some {y : Object} (contains : store.contains domain x = true)
    (isImage : store.images function x.id = some y) :
    outcome (image function name domain range x) store = (.ok y, store) := by
  rw [image, outcome_bind_of_ok (show outcome get store = (.ok store, store) from rfl),
    if_pos contains, isImage]
  rfl

theorem outcome_image_of_none (contains : store.contains domain x = true)
    (isNew : store.images function x.id = none) :
    outcome (image function name domain range x) store =
      (.ok (store.newImage name range x), store.imaged function name range x) := by
  rw [image, outcome_bind_of_ok (show outcome get store = (.ok store, store) from rfl),
    if_pos contains, isNew]
  have ending : ∀ {store : Store} {y : Object}, outcome (do
      if range.isExtensible then insert range y
      return y) store =
        (.ok y, if range.isExtensible then store.inserted range y else store) := by
    intro store y
    split
    · rename_i isExtensible
      rw [outcome_bind_of_ok (outcome_insert isExtensible y store)]
      rfl
    · rfl
  refine (show _ = outcome (do
      if range.isExtensible then insert range (store.newImage name range x)
      return store.newImage name range x) _ from rfl).trans (ending.trans ?_)
  rw [Store.imaged, Store.supplied]
  dsimp only
  split
  · rw [← Store.inserted_setImage]
    rfl
  · rfl

theorem updating_image (isKnown : known (.function function name domain range .onDemand))
    (x : Object) : Updating known given (image function name domain range x) := by
  intro store
  by_cases contains : store.contains domain x = true
  · cases isImage : store.images function x.id with
    | none =>
        rw [outcome_image_of_none contains isImage]
        exact Store.updates_imaged isKnown isImage
    | some y =>
        rw [outcome_image_of_some contains isImage]
        exact .refl
  · rw [outcome_image_of_outside contains]
    exact .refl

end Image

mutual

theorem updating_apply (closed : ∀ set, known set → ∀ part ∈ set.constituents, known part) :
    (set : Collection) → known set → (x : Object) → Updating known given (apply set x)
  | .function id name domain range mapping, isKnown, x => by
      rw [apply]
      refine updating_applyMapping closed mapping (fun part isPart => ?_) (fun isOnDemand => ?_) x
      · exact closed _ isKnown part (List.mem_cons_of_mem _ (List.mem_cons_of_mem _ isPart))
      · rw [isOnDemand] at isKnown
        exact updating_image isKnown
  | .plain id name, _, _ => by
      rw [apply]
      · exact updating_throw _
      · exact fun _ _ _ _ _ isFunction => nomatch isFunction
  | .number set, _, _ => by
      rw [apply]
      · exact updating_throw _
      · exact fun _ _ _ _ _ isFunction => nomatch isFunction
  | .product id name factors, _, _ => by
      rw [apply]
      · exact updating_throw _
      · exact fun _ _ _ _ _ isFunction => nomatch isFunction

theorem updating_applyMapping (closed : ∀ set, known set → ∀ part ∈ set.constituents, known part)
    {image : Object → Kernel Object} : (mapping : Mapping) →
    (∀ part ∈ mapping.constituents, known part) →
    (mapping = .onDemand → ∀ x, Updating known given (image x)) → (x : Object) →
    Updating known given (applyMapping image mapping x)
  | .onDemand, _, updatingImage, x => by
      rw [applyMapping]
      exact updatingImage rfl x
  | .plus summand, _, _, x => by
      rw [applyMapping]
      exact updating_calculate .plus x summand
  | .minus subtrahend, _, _, x => by
      rw [applyMapping]
      exact updating_calculate .minus x subtrahend
  | .constant value, _, _, _ => by
      rw [applyMapping]
      exact updating_pure value
  | .identity, _, _, x => by
      rw [applyMapping]
      exact updating_pure x
  | .pair, _, _, x => by
      rw [applyMapping]
      exact updating_create _ _ _
  | .compose outer inner, areKnown, _, x => by
      rw [applyMapping]
      have outerKnown := areKnown outer List.mem_cons_self
      have innerKnown := areKnown inner (List.mem_cons_of_mem _ List.mem_cons_self)
      exact updating_bind (updating_apply closed inner innerKnown x)
        (updating_apply closed outer outerKnown)

end

/-! ## Enumeration -/

/-- An operation that only advances the count of objects. -/
theorem updating_advance (change : Nat → α × Nat) (advances : ∀ count, count ≤ (change count).2) :
    Updating known given (modifyGet fun store =>
      let (a, created) := change store.created
      (a, { store with created })) :=
  updating_modifyGet fun store => .created (advances store.created)

end Kernel

namespace Cursor

theorem le_step (cursor : Cursor) (created : Nat) : created ≤ (cursor.step created).2 := by
  fun_induction Cursor.step cursor created <;> grind

theorem le_pullWithin (steps : Nat) (cursor : Cursor) (created : Nat) :
    created ≤ (pullWithin steps cursor created).2 := by
  induction steps generalizing cursor created with
  | zero => exact Nat.le_refl _
  | succ steps induction =>
      have first := cursor.le_step created
      rw [pullWithin]
      split
      · rename_i stepped
        rwa [stepped] at first
      · rename_i rest later stepped
        rw [stepped] at first
        exact Nat.le_trans first (induction rest later)
      · rename_i stepped
        rwa [stepped] at first

theorem le_drainWithin (steps : Nat) (cursor : Cursor) (created : Nat) :
    created ≤ (drainWithin steps cursor created).2 := by
  induction steps generalizing cursor created with
  | zero => exact Nat.le_refl _
  | succ steps induction =>
      have first := cursor.le_step created
      rw [drainWithin]
      split
      · rename_i x rest later stepped
        rw [stepped] at first
        exact Nat.le_trans first (induction rest later)
      · rename_i rest later stepped
        rw [stepped] at first
        exact Nat.le_trans first (induction rest later)
      · rename_i stepped
        rwa [stepped] at first

end Cursor

namespace Kernel

variable {α β : Type} {known : Collection → Prop} {given : SetId → Object → Prop}

theorem updating_pull (cursor : Cursor) : Updating known given (pull cursor) :=
  updating_advance cursor.pull (cursor.le_pullWithin _)

theorem updating_drain (cursor : Cursor) : Updating known given (drain cursor) :=
  updating_advance cursor.drain (cursor.le_drainWithin _)

theorem updating_take (number : Nat) (cursor : Cursor) :
    Updating known given (take number cursor) := by
  induction number generalizing cursor with
  | zero => exact updating_pure _
  | succ number induction =>
      refine updating_bind (updating_pull cursor) fun pulled => ?_
      cases pulled with
      | item x rest => exact updating_bind (induction rest) fun _ => updating_pure _
      | finished => exact updating_pure _
      | stalled => exact updating_pure _

mutual

theorem updating_enumerate : (set : Collection) → Updating known given (enumerate set)
  | .plain id name => by
      rw [enumerate]
      exact updating_bind updating_get fun _ => updating_pure _
  | .number (.naturals id) => by
      rw [enumerate]
      exact updating_pure _
  | .number (.rationals id n) => by
      rw [enumerate]
      · exact updating_throw _
      · exact fun _ isNaturals => nomatch isNaturals
  | .number (.reals id q n) => by
      rw [enumerate]
      · exact updating_throw _
      · exact fun _ isNaturals => nomatch isNaturals
  | .product id name [] => by
      rw [enumerate]
      exact updating_throw _
  | .product id name (first :: rest) => by
      rw [enumerate]
      split
      · exact updating_bind (updating_enumerateAll rest) fun _ =>
          updating_bind (updating_enumerate first) fun _ => updating_pure _
      · exact updating_throw _
  | .function id name domain range mapping => by
      rw [enumerate]
      exact updating_throw _

theorem updating_enumerateAll : (sets : List Collection) → Updating known given (enumerateAll sets)
  | [] => by
      rw [enumerateAll]
      exact updating_pure _
  | set :: sets => by
      rw [enumerateAll]
      exact updating_bind (updating_enumerate set) fun cursor =>
        updating_bind (updating_drain cursor) fun _ =>
          updating_bind (updating_enumerateAll sets) fun _ => updating_pure _

end

/-! ## Certificates and schemas -/

theorem updating_substitute (p : Proposition) (old new : Object) :
    Updating known given (substitute p old new) :=
  updating_advance (p.substitute old new) (p.le_count_substitute old new)

theorem updating_certify (conclusion : Proposition) (rule : Rule) (premises : List Proof) :
    Updating known given (certify conclusion rule premises) :=
  updating_bind (updating_report _) fun _ => updating_modifyGet fun _ => .certified

theorem updating_conclude (attempt : Except Fault Proposition) (rule : Rule)
    (premises : List Proof) : Updating known given (conclude attempt rule premises) :=
  updating_bind (updating_liftExcept _) fun conclusion => updating_certify conclusion rule premises

theorem updating_domain (bound : Object) : Updating known given (domain bound) :=
  updating_bind updating_get fun _ => updating_liftExcept _

theorem updating_restrict (rule : Rule) (x y : Object) :
    Updating known given (restrict rule x y) := by
  refine updating_bind (updating_domain x) fun outer => ?_
  cases outer with
  | none => exact updating_pure _
  | some larger =>
      refine updating_bind (updating_domain y) fun inner => ?_
      cases inner with
      | none => exact updating_throw _
      | some smaller =>
          dsimp only
          split
          · exact updating_pure _
          · exact updating_throw _

theorem updating_postulate (statement : Proposition) :
    Updating known given (postulate statement) := by
  unfold postulate
  split
  · exact updating_bind (updating_certify _ _ _) fun _ => updating_certify _ _ _
  · exact updating_certify _ _ _

theorem updating_applySchema (schema : Schema) (bindings : Bindings) (assert : Bool) :
    Updating known given (applySchema schema bindings assert) := by
  refine updating_bind (updating_reportAll _) fun _ => ?_
  refine updating_bind (updating_liftExcept _) fun bound => ?_
  split
  · refine updating_bind (updating_liftExcept _) fun statement => ?_
    refine updating_bind (updating_report _) fun _ => ?_
    split
    · exact updating_bind (updating_postulate statement) fun _ => updating_pure _
    · exact updating_pure _
  · exact updating_pure _

theorem updating_applyReduction (reduction : Reduction) (bindings : Bindings) (assert : Bool) :
    Updating known given (applyReduction reduction bindings assert) := by
  unfold applyReduction
  split
  · exact updating_applySchema _ bindings assert
  · split
    · exact updating_pure _
    · exact updating_throw _

theorem updating_assertedProof (reduction : Reduction) :
    Updating known given (assertedProof reduction) := by
  cases reduction with
  | asserted proof => exact updating_pure proof
  | _ => exact updating_throw _

theorem updating_instantiate (schema : Schema) (bindings : Bindings) :
    Updating known given (instantiate schema bindings) := by
  refine updating_bind (updating_applySchema schema bindings false) fun reduction => ?_
  cases reduction with
  | unfinished schema => exact updating_throw _
  | complete statement => exact updating_pure _
  | asserted proof => exact updating_pure _

theorem updating_assume (schema : Schema) (bindings : Bindings) :
    Updating known given (assume schema bindings) :=
  updating_bind (updating_applySchema schema bindings true) updating_assertedProof

theorem updating_proveMembership (statement : Proposition) :
    Updating known given (proveMembership statement) :=
  updating_bind updating_get fun _ =>
    updating_bind (updating_liftExcept _) fun _ => updating_certify _ _ _

theorem updating_proveOrdering (statement : Proposition) :
    Updating known given (proveOrdering statement) :=
  updating_bind (updating_liftExcept _) fun _ => updating_certify _ _ _

/-! ## Rules -/

theorem updating_universalResolution (all : Proof) (y : Object) :
    Updating known given (universalResolution all y) := by
  have ending : ∀ (x : Object) (body : Proposition),
      Updating known given (do certify (← substitute body x y) .universalResolution [all]) :=
    fun x body => updating_bind (updating_substitute body x y) fun _ => updating_certify _ _ _
  refine updating_bind (updating_liftExcept _) ?_
  rintro ⟨x, body⟩
  refine updating_bind (updating_domain x) fun found => ?_
  cases found with
  | none => exact ending x body
  | some set =>
      refine updating_bind updating_get fun store => ?_
      split
      · exact ending x body
      · exact updating_throw _

theorem updating_quantifiedModusPonens (all premise : Proof) :
    Updating known given (quantifiedModusPonens all premise) := by
  refine updating_bind (updating_liftExcept _) ?_
  rintro ⟨x, implication⟩
  dsimp only
  split
  · refine updating_bind (updating_liftExcept _) fun _ => ?_
    refine updating_bind (updating_restrict _ _ _) fun _ => ?_
    refine updating_bind (updating_substitute _ _ _) fun result => ?_
    split
    · exact updating_bind (updating_liftExcept _) fun _ => updating_certify _ _ _
    · exact updating_throw _
  · exact updating_throw _

theorem updating_single {wrap : α → Session.Item} {action : Kernel α}
    (updating : Updating known given action) : Updating known given (single wrap action) :=
  updating_bind updating fun _ => updating_pure _

end Kernel

open Kernel

theorem RuleCall.updating_perform {known : Collection → Prop} {given : SetId → Object → Prop}
    (call : RuleCall) :
    Updating known given call.perform := by
  cases call with
  | conjunction a b => exact updating_single (updating_certify _ _ _)
  | disjunction a b => exact updating_single (updating_certify _ _ _)
  | excludedMiddle a => exact updating_single (updating_certify _ _ _)
  | nonContradiction a => exact updating_single (updating_certify _ _ _)
  | trivial a => exact updating_single (updating_certify _ _ _)
  | equivalenceElimination equivalence =>
      refine updating_bind ?_ fun _ => updating_pure _
      exact updating_bind (updating_liftExcept _) fun _ =>
        updating_bind (updating_certify _ _ _) fun _ =>
          updating_bind (updating_certify _ _ _) fun _ => updating_pure _
  | universalResolution all y => exact updating_single (updating_universalResolution all y)
  | existentialResolution existence =>
      refine updating_bind ?_ fun _ => updating_pure _
      exact updating_bind (updating_liftExcept _) fun _ =>
        updating_bind (updating_domain _) fun _ =>
          updating_bind (updating_create _ _ _) fun _ =>
            updating_bind (updating_substitute _ _ _) fun _ =>
              updating_bind (updating_certify _ _ _) fun _ => updating_pure _
  | existentialIntroduction instanceProof y x =>
      exact updating_single (updating_bind (updating_liftExcept _) fun _ =>
        updating_bind (updating_substitute _ _ _) fun _ => updating_certify _ _ _)
  | quantifiedModusPonens all premise =>
      exact updating_single (updating_quantifiedModusPonens all premise)
  | _ => exact updating_single (updating_conclude _ _ _)

/-! ## Calls -/

/-- The calls that form sets. -/
def Call.formsSets : Call → Bool
  | plainSet _ => true
  | productSet _ _ => true
  | functionSet _ _ _ _ => true
  | numberSets => true
  | _ => false

/-- The object is given to the set by the call. -/
def Call.Gives (call : Call) (set : SetId) (x : Object) : Prop :=
  ∃ target : Collection, call = .insert target x ∧ target.id = set

/-- All other calls consist of updates, also if they are refused. -/
theorem Call.updating_perform {known : Collection → Prop} {call : Call}
    (formsNone : call.formsSets = false)
    (closed : ∀ set, known set → ∀ part ∈ set.constituents, known part)
    (isKnown : ∀ function x, call = .apply function x → known function) :
    Updating known call.Gives call.perform := by
  cases call with
  | object name => exact updating_single (updating_create _ _ _)
  | objectIn name set => exact updating_single (updating_create _ _ _)
  | tuple components => exact updating_single (updating_create _ _ _)
  | calculate operation left right => exact updating_single (updating_calculate _ _ _)
  | plainSet name => cases formsNone
  | productSet name factors => cases formsNone
  | functionSet name domain range mapping => cases formsNone
  | numberSets => cases formsNone
  | literal numbers name =>
      exact updating_bind (updating_literal numbers name) fun _ => updating_pure _
  | insert set x =>
      exact updating_bind (updating_insert ⟨set, rfl, rfl⟩) fun _ => updating_pure _
  | enumerate set => exact updating_single (updating_enumerate set)
  | take number cursor => exact updating_bind (updating_take number cursor) fun _ => updating_pure _
  | apply function x => exact updating_single (updating_apply closed function (isKnown _ _ rfl) x)
  | substitute p old new => exact updating_single (updating_substitute _ _ _)
  | applySchema schema bindings assert => exact updating_single (updating_applySchema _ _ _)
  | applyReduction reduction bindings assert =>
      exact updating_single (updating_applyReduction _ _ _)
  | instantiate schema bindings => exact updating_single (updating_instantiate _ _)
  | assume schema bindings => exact updating_single (updating_assume _ _)
  | assertedProof reduction => exact updating_single (updating_assertedProof _)
  | proveMembership statement => exact updating_single (updating_proveMembership _)
  | proveOrdering statement => exact updating_single (updating_proveOrdering _)
  | rule call => exact call.updating_perform

end Deduction
