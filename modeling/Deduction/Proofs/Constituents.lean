import Deduction.Proofs.Run

/-! # Constituents

A value lies within some objects if all objects that can be read off it, at any depth,
are among these. A tuple is created under a name that spells its components. -/

namespace Deduction

open Session (Item)

/-! ## Proof trees -/

inductive Proof.IsNodeOf (node : Proof) : Proof → Prop
  | root : IsNodeOf node node
  | above {proof premise : Proof} :
      premise ∈ proof.premises → IsNodeOf node premise → IsNodeOf node proof

/-! ## Objects and sets -/

def Object.IsSpelled (x : Object) : Prop :=
  x.components = [] ∨ x.name = tupleName x.components

/-- The object and its components are among the given ones. -/
inductive Object.Within (among : Object → Prop) : Object → Prop
  | intro {x : Object} : among x → x.IsSpelled →
      (∀ component ∈ x.components, Within among component) → Within among x

mutual

/-- The objects that the mapping of a function, or of one that the set was formed
of, refers to. -/
def Collection.objects : Collection → List Object
  | .plain _ _ => []
  | .number _ => []
  | .product _ _ factors => Collection.objectsOfAll factors
  | .function _ _ domain range mapping => domain.objects ++ range.objects ++ mapping.objects

def Mapping.objects : Mapping → List Object
  | .onDemand => []
  | .plus summand => [summand]
  | .minus subtrahend => [subtrahend]
  | .constant value => [value]
  | .identity => []
  | .pair => []
  | .compose outer inner => outer.objects ++ inner.objects

def Collection.objectsOfAll : List Collection → List Object
  | [] => []
  | head :: tail => head.objects ++ Collection.objectsOfAll tail

end

theorem Collection.mem_objectsOfAll {x : Object} {sets : List Collection} :
    x ∈ Collection.objectsOfAll sets ↔ ∃ set ∈ sets, x ∈ set.objects := by
  induction sets with
  | nil => simp [objectsOfAll]
  | cons head tail induction => simp [objectsOfAll, induction]

def Collection.Within (among : Object → Prop) (set : Collection) : Prop :=
  ∀ x ∈ set.objects, x.Within among

def Argument.Within (among : Object → Prop) : Argument → Prop
  | .object x => x.Within among
  | .set s => s.Within among

/-! ## Propositions, schemas and proofs -/

def Proposition.Within (among : Object → Prop) (p : Proposition) : Prop :=
  (∀ x ∈ p.objects, x.Within among) ∧ ∀ set ∈ p.sets, set.Within among

def Slot.Within (among : Object → Prop) (slot : Slot) : Prop :=
  ∀ value, slot.value = some value → value.Within among

def Schema.Within (among : Object → Prop) : Schema → Prop
  | .settled statement => statement.Within among
  | .elementary _ slots _ => ∀ slot ∈ slots, slot.Within among
  | .binary _ slots left _ right =>
      (∀ slot ∈ slots, slot.Within among) ∧ left.Within among ∧ right.Within among
  | .quantified _ slots _ inner => (∀ slot ∈ slots, slot.Within among) ∧ inner.Within among

def Proof.Within (among : Object → Prop) (proof : Proof) : Prop :=
  ∀ node : Proof, node.IsNodeOf proof → node.conclusion.Within among

def Reduction.Within (among : Object → Prop) : Reduction → Prop
  | .unfinished schema => schema.Within among
  | .complete statement => statement.Within among
  | .asserted proof => proof.Within among

def Cursor.Within (among : Object → Prop) : Cursor → Prop
  | .listed rest => ∀ x ∈ rest, x.Within among
  | .counting _ _ => True
  | .tuples heads tails pending =>
      heads.Within among ∧ (∀ tail ∈ tails, ∀ x ∈ tail, x.Within among) ∧
        ∀ components ∈ pending, ∀ x ∈ components, x.Within among

def Session.Item.Within (among : Object → Prop) : Item → Prop
  | .object x => x.Within among
  | .set s => s.Within among
  | .proposition p => p.Within among
  | .schema s => s.Within among
  | .reduction r => r.Within among
  | .proof p => p.Within among
  | .cursor c => c.Within among

structure Store.Within (among : Object → Prop) (store : Store) : Prop where
  living : ∀ set ∈ store.living, set.Within among
  members : ∀ set, ∀ x ∈ store.members set, x.Within among
  images : ∀ function input image, store.images function input = some image → image.Within among

/-- The roster lists the objects created so far, and the store holds no others. -/
structure Store.Lists (roster : List Object) (store : Store) : Prop where
  numbered : Object.Numbered 0 roster store.created
  within : store.Within (· ∈ roster)

/-! ## More objects -/

section More

variable {among more : Object → Prop} (imp : ∀ ⦃x⦄, among x → more x)

include imp

theorem Object.Within.mono {x : Object} (within : x.Within among) : x.Within more := by
  induction within with
  | intro isAmong isSpelled _ induction => exact .intro (imp isAmong) isSpelled induction

theorem Collection.Within.mono {set : Collection} (within : set.Within among) :
    set.Within more :=
  fun x member => (within x member).mono imp

theorem Argument.Within.mono {argument : Argument} (within : argument.Within among) :
    argument.Within more := by
  cases argument with
  | object x => exact Object.Within.mono imp within
  | set s => exact Collection.Within.mono imp within

theorem Proposition.Within.mono {p : Proposition} (within : p.Within among) : p.Within more :=
  ⟨fun x member => (within.1 x member).mono imp, fun set member => (within.2 set member).mono imp⟩

theorem Slot.Within.mono {slot : Slot} (within : slot.Within among) : slot.Within more :=
  fun value isValue => (within value isValue).mono imp

theorem Schema.Within.mono {schema : Schema} (within : schema.Within among) :
    schema.Within more := by
  induction schema with
  | settled statement => exact Proposition.Within.mono imp within
  | elementary name slots form => exact fun slot member => (within slot member).mono imp
  | binary name slots left connective right leftInduction rightInduction =>
      exact ⟨fun slot member => (within.1 slot member).mono imp, leftInduction within.2.1,
        rightInduction within.2.2⟩
  | quantified name slots quantifier inner induction =>
      exact ⟨fun slot member => (within.1 slot member).mono imp, induction within.2⟩

theorem Proof.Within.mono {proof : Proof} (within : proof.Within among) : proof.Within more :=
  fun node isNode => (within node isNode).mono imp

theorem Reduction.Within.mono {reduction : Reduction} (within : reduction.Within among) :
    reduction.Within more := by
  cases reduction with
  | unfinished schema => exact Schema.Within.mono imp within
  | complete statement => exact Proposition.Within.mono imp within
  | asserted proof => exact Proof.Within.mono imp within

theorem Cursor.Within.mono {cursor : Cursor} (within : cursor.Within among) :
    cursor.Within more := by
  induction cursor with
  | listed rest => exact fun x member => (within x member).mono imp
  | counting set next => trivial
  | tuples heads tails pending induction =>
      exact ⟨induction within.1,
        fun tail tailMember x member => (within.2.1 tail tailMember x member).mono imp,
        fun components componentsMember x member =>
          (within.2.2 components componentsMember x member).mono imp⟩

theorem Session.Item.Within.mono {item : Item} (within : item.Within among) :
    item.Within more := by
  cases item with
  | object x => exact Object.Within.mono imp within
  | set s => exact Collection.Within.mono imp within
  | proposition p => exact Proposition.Within.mono imp within
  | schema s => exact Schema.Within.mono imp within
  | reduction r => exact Reduction.Within.mono imp within
  | proof p => exact Proof.Within.mono imp within
  | cursor c => exact Cursor.Within.mono imp within

theorem Store.Within.mono {store : Store} (within : store.Within among) : store.Within more where
  living set member := (within.living set member).mono imp
  members set x member := (within.members set x member).mono imp
  images function input image isImage := (within.images function input image isImage).mono imp

end More

/-! ## Parts of values -/

section Parts

variable {among : Object → Prop}

theorem Object.Within.isAmong {x : Object} (within : x.Within among) : among x := by
  cases within
  assumption

theorem Object.Within.component {x component : Object} (within : x.Within among)
    (member : component ∈ x.components) : component.Within among := by
  cases within with
  | intro _ _ componentsWithin => exact componentsWithin component member

theorem Object.Within.isSpelled {x : Object} (within : x.Within among) : x.IsSpelled := by
  cases within
  assumption

theorem Object.Within.precedes {x : Object} {count : Nat} (within : x.Within (·.id ≤ count)) :
    x.key.Precedes count :=
  Object.precedes_of_id_le within.isAmong

theorem Proposition.Within.precedes {p : Proposition} {count : Nat}
    (within : p.Within (·.id ≤ count)) : p.Precedes count :=
  fun x member => (within.1 x member).precedes

@[simp] theorem Proposition.within_binary {left right : Proposition} {connective : Connective} :
    (binary left connective right).Within among ↔ left.Within among ∧ right.Within among := by
  simp only [Within, objects, sets, List.mem_append, or_imp, forall_and]
  constructor
  · rintro ⟨⟨leftObjects, rightObjects⟩, leftSets, rightSets⟩
    exact ⟨⟨leftObjects, leftSets⟩, rightObjects, rightSets⟩
  · rintro ⟨⟨leftObjects, leftSets⟩, rightObjects, rightSets⟩
    exact ⟨⟨leftObjects, rightObjects⟩, leftSets, rightSets⟩

@[simp] theorem Proposition.within_quantified {quantifier : Quantifier} {bound : Object}
    {body : Proposition} :
    (quantified quantifier bound body).Within among ↔ bound.Within among ∧ body.Within among := by
  simp only [Within, objects, sets, List.mem_cons, forall_eq_or_imp]
  exact and_assoc

@[simp] theorem Proposition.within_falsum : falsum.Within among := by
  simp [Within, objects, sets]

@[simp] theorem Proposition.within_not {p : Proposition} : p.not.Within among ↔ p.Within among := by
  unfold Proposition.not
  split <;> simp

theorem Proof.Within.conclusion {proof : Proof} (within : proof.Within among) :
    proof.conclusion.Within among :=
  within proof .root

theorem Proof.Within.premise {proof premise : Proof} (within : proof.Within among)
    (member : premise ∈ proof.premises) : premise.Within among :=
  fun node isNode => within node (.above member isNode)

theorem Proof.within_of_premises {proof : Proof} (conclusion : proof.conclusion.Within among)
    (premises : ∀ premise ∈ proof.premises, premise.Within among) : proof.Within among := by
  intro node isNode
  cases isNode with
  | root => exact conclusion
  | above member isNode => exact premises _ member node isNode

theorem Schema.Within.slots {schema : Schema} (within : schema.Within among) :
    ∀ slot ∈ schema.slots, slot.Within among := by
  cases schema with
  | settled statement => exact fun slot member => nomatch member
  | elementary name slots form => exact within
  | binary name slots left connective right => exact within.1
  | quantified name slots quantifier inner => exact within.1

theorem Schema.Within.bound {schema : Schema} (within : schema.Within among) {parameter : String}
    {value : Argument} (member : (parameter, value) ∈ schema.bound) : value.Within among := by
  obtain ⟨slot, slotMember, isBound⟩ := List.mem_filterMap.mp member
  obtain ⟨value', isValue, equal⟩ := Option.map_eq_some_iff.mp isBound
  cases equal
  exact within.slots slot slotMember value isValue

@[simp] theorem Argument.within_item {argument : Argument} :
    argument.item.Within among ↔ argument.Within among := by
  cases argument <;> exact Iff.rfl

@[simp] theorem Schema.within_item {schema : Schema} :
    schema.item.Within among ↔ schema.Within among := by
  cases schema <;> exact Iff.rfl

theorem Store.Within.addMember {store : Store} {x : Object} (within : store.Within among)
    (set : SetId) (xWithin : x.Within among) : (store.addMember set x).Within among := by
  refine ⟨within.living, ?_, within.images⟩
  intro other y member
  by_cases same : other = set
  · rw [same, Store.members_addMember_same] at member
    rcases List.mem_append.mp member with isOld | isNew
    · exact within.members set y isOld
    · rw [List.mem_singleton.mp isNew]
      exact xWithin
  · rw [Store.members_addMember_other store x same] at member
    exact within.members other y member

theorem Store.Within.setImage {store : Store} {image : Object} (within : store.Within among)
    (function : SetId) (input : Nat) (imageWithin : image.Within among) :
    (store.setImage function input image).Within among := by
  refine ⟨within.living, within.members, ?_⟩
  intro otherFunction otherInput otherImage isImage
  by_cases same : otherFunction = function ∧ otherInput = input
  · rw [same.1, same.2, Store.images_setImage_same] at isImage
    cases isImage
    exact imageWithin
  · rw [Store.images_setImage_other store image same] at isImage
    exact within.images _ _ otherImage isImage

theorem Slot.within_declare (parameter : String × ArgumentKind) :
    (declare parameter).Within among :=
  fun _ isValue => nomatch isValue

theorem Slot.within_declared (parameters : List (String × ArgumentKind)) :
    ∀ slot ∈ parameters.map declare, slot.Within among := by
  intro slot member
  obtain ⟨parameter, _, rfl⟩ := List.mem_map.mp member
  exact within_declare parameter

end Parts

/-! ## Held values

What is read off values or built from them has no other constituents. -/

theorem Run.Holds.within {run : Run} {among : Object → Prop} {item : Item} (held : run.Holds item)
    (storeWithin : run.store.Within among)
    (resultsWithin : ∀ entry ∈ run.history, ∀ item ∈ entry.results, item.Within among) :
    item.Within among := by
  induction held with
  | result entryMember member => exact resultsWithin _ entryMember _ member
  | component _ member induction => exact Object.Within.component induction member
  | owner _ isOwner _ =>
      obtain ⟨id, _, isFound⟩ := Option.bind_eq_some_iff.mp isOwner
      exact storeWithin.living _ (List.mem_of_find?_eq_some isFound)
  | proposition _ _ objectsInduction setsInduction => exact ⟨objectsInduction, setsInduction⟩
  | objectOf _ member induction => exact induction.1 _ member
  | setOf _ member induction => exact induction.2 _ member
  | conclusion _ induction => exact Proof.Within.conclusion induction
  | premise _ member induction => exact Proof.Within.premise induction member
  | generic name parameters => exact Slot.within_declared parameters
  | membership name => exact Slot.within_declared _
  | ordering name relation => exact Slot.within_declared _
  | subset name => exact Slot.within_declared _
  | combine name connective _ _ leftInduction rightInduction =>
      exact ⟨Slot.within_declared _, Schema.within_item.mp leftInduction,
        Schema.within_item.mp rightInduction⟩
  | quantify name quantifier variableName _ induction =>
      exact ⟨Slot.within_declared _, Schema.within_item.mp induction⟩
  | boundValue _ member induction =>
      exact Argument.within_item.mpr (Schema.Within.bound induction member)
  | @reducedSchema reduction schema _ isSchema induction =>
      cases reduction with
      | unfinished schema' =>
          cases isSchema
          exact induction
      | complete statement => cases isSchema
      | asserted proof => cases isSchema
  | @reducedStatement reduction statement _ isStatement induction =>
      cases reduction with
      | unfinished schema => cases isStatement
      | complete statement' =>
          cases isStatement
          exact induction
      | asserted proof =>
          cases isStatement
          exact Proof.Within.conclusion induction

end Deduction
