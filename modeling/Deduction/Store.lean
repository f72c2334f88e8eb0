import Deduction.Event

/-! # The store

Everything that changes as the kernel works: how many objects, sets and proofs
there are, which sets exist, the members of sets, the images of functions, and
the events reported. -/

namespace Deduction

structure Store where
  /-- The number of objects created so far, which is the number of the last. -/
  created : Nat
  /-- The number of sets formed so far. -/
  formed : Nat
  /-- The number of proofs issued so far. -/
  certified : Nat
  /-- The sets that exist. -/
  living : List Collection
  /-- The objects inserted into a set, in order of insertion. -/
  members : SetId → List Object
  /-- The image of the object with the given number under a function whose
  images are created on demand. -/
  images : SetId → Nat → Option Object
  journal : List Event

namespace Store

def empty : Store where
  created := 0
  formed := 0
  certified := 0
  living := []
  members := fun _ => []
  images := fun _ _ => none
  journal := []

/-! ## Existing sets -/

def find (store : Store) (id : SetId) : Option Collection :=
  store.living.find? fun set => set.id == id

/-- The set that an object belongs to, if it still exists. -/
def owner (store : Store) (x : Object) : Option Collection :=
  x.owner.bind store.find

/-- The set that restricts a bound variable. Membership in a set that has
ceased to exist cannot be decided. -/
def domain (store : Store) (bound : Object) : Except Fault (Option Collection) :=
  match bound.owner with
  | none => .ok none
  | some id =>
      match store.find id with
      | some set => .ok (some set)
      | none => .error (.droppedDomain bound)

/-- Let all sets but the given ones cease to exist. -/
def retain (store : Store) (isKept : SetId → Bool) : Store :=
  { store with living := store.living.filter fun set => isKept set.id }

/-- The given sets together with those that they keep in existence. The sets
that exist are listed latest first, so that the parts of a set come after it. -/
def reached (store : Store) (sets : Std.HashSet SetId) : Std.HashSet SetId :=
  store.living.foldl
    (fun found set => if found.contains set.id then found.insertMany set.parts else found) sets

/-! ## Members and images -/

def addMember (store : Store) (set : SetId) (x : Object) : Store :=
  { store with
    members := fun other =>
      if other = set then store.members set ++ [x] else store.members other }

@[simp] theorem members_addMember_same (store : Store) (set : SetId) (x : Object) :
    (store.addMember set x).members set = store.members set ++ [x] := by
  simp [addMember]

@[simp] theorem members_addMember_other (store : Store) {set other : SetId} (x : Object)
    (different : other ≠ set) :
    (store.addMember set x).members other = store.members other := by
  simp [addMember, different]

def setImage (store : Store) (function : SetId) (input : Nat) (image : Object) :
    Store :=
  { store with
    images := fun otherFunction otherInput =>
      if otherFunction = function ∧ otherInput = input then
        some image
      else
        store.images otherFunction otherInput }

@[simp] theorem images_setImage_same (store : Store) (function : SetId) (input : Nat)
    (image : Object) :
    (store.setImage function input image).images function input = some image := by
  simp [setImage]

@[simp] theorem images_setImage_other (store : Store)
    {function otherFunction : SetId} {input otherInput : Nat} (image : Object)
    (different : ¬(otherFunction = function ∧ otherInput = input)) :
    (store.setImage function input image).images otherFunction otherInput =
      store.images otherFunction otherInput := by
  simp [setImage, different]

/-! ## Membership

A number set contains its literals, the objects that belong to it or to a
number set of the same or a smaller kind, the objects inserted into it, and
whatever the smaller number sets contain. -/

def belongs (store : Store) (set : NumberSet) (x : Object) : Bool :=
  match store.owner x with
  | none => false
  | some owner =>
      owner.id == set.id ||
        match owner.numberKind with
        | some kind => kind ≤ set.kind
        | none => false

def containsAtLevel (store : Store) (set : NumberSet) (x : Object) : Bool :=
  set.kind.isLiteral x.name || store.belongs set x || (store.members set.id).contains x

def containsNumber (store : Store) (set : NumberSet) (x : Object) : Bool :=
  set.chain.any fun level => store.containsAtLevel level x

mutual

/-- A product contains the tuples whose components lie in its factors; a
function contains nothing. -/
def contains (store : Store) : Collection → Object → Bool
  | .plain id _, x => (store.members id).contains x
  | .number set, x => store.containsNumber set x
  | .product _ _ factors, x => x.isTuple && containsEach store factors x.components
  | .function _ _ _ _ _, _ => false

def containsEach (store : Store) : List Collection → List Object → Bool
  | [], [] => true
  | factor :: factors, component :: components =>
      contains store factor component && containsEach store factors components
  | _, _ => false

end

end Store

end Deduction
