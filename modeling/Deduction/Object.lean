/-! # Objects

The elements of the domain of discourse. An object is told from others by its
name or, when it has none, by the number it received at its creation. -/

namespace Deduction

/-- The number a set received at its creation, which identifies it. -/
abbrev SetId := Nat

/-- An `owner` refers to the set an object belongs to; that set may have ceased
to exist. `components` are the parts of a tuple. -/
structure Object where
  id : Nat
  name : String
  owner : Option SetId
  components : List Object

namespace Object

/-- What decides whether two objects are equal. -/
inductive Key where
  | named (name : String)
  | unnamed (id : Nat)
  deriving DecidableEq

def key (x : Object) : Key :=
  if x.name = "" then .unnamed x.id else .named x.name

instance : BEq Object where
  beq left right := decide (left.key = right.key)

theorem beq_iff_key {left right : Object} :
    (left == right) = true ↔ left.key = right.key := by
  simp [BEq.beq]

theorem beq_iff_name {left right : Object} (leftNamed : left.name ≠ "")
    (rightNamed : right.name ≠ "") : (left == right) = true ↔ left.name = right.name := by
  rw [beq_iff_key, key, key, if_neg leftNamed, if_neg rightNamed, Key.named.injEq]

/-- Objects are the same if they arose from one act of creation. -/
def same (left right : Object) : Bool :=
  left.id == right.id

def text (x : Object) : String :=
  if x.name = "" then "Obj(e_" ++ toString x.id ++ ")" else x.name

theorem text_of_named {x : Object} (named : x.name ≠ "") : x.text = x.name :=
  if_neg named

def isTuple (x : Object) : Bool :=
  !x.components.isEmpty

end Object

/-! ## Argument lists

Arguments are written in parentheses, and not at all if there are none. -/

def argumentText (texts : List String) : String :=
  if texts.isEmpty then "" else "(" ++ ", ".intercalate texts ++ ")"

/-- The name of a tuple spells its components. -/
def tupleName (components : List Object) : String :=
  if components.isEmpty then "()" else argumentText (components.map Object.text)

end Deduction
