import Deduction.Kernel

/-! # Enumeration

The elements of a set are enumerated through a cursor, which creates objects
only as they are asked for. The naturals are counted from one. A product is
enumerated lexicographically with its last factor varying fastest; only its
first factor may be infinite. -/

namespace Deduction

/-- Continue every choice by each object of the next column. -/
def extended (choices : List (List Object)) (column : List Object) : List (List Object) :=
  choices.flatMap fun chosen => column.map fun x => chosen ++ [x]

/-- All ways to choose one object of each column, the last varying fastest. -/
def combinations (columns : List (List Object)) : List (List Object) :=
  columns.foldl extended [[]]

theorem foldl_extended (columns choices : List (List Object)) :
    columns.foldl extended choices =
      choices.flatMap fun chosen => (combinations columns).map (chosen ++ ·) := by
  induction columns generalizing choices with
  | nil => simp [combinations]
  | cons column columns induction =>
      rw [combinations, List.foldl_cons, List.foldl_cons, induction, induction]
      simp [extended, List.flatMap_assoc, List.flatMap_map, List.map_flatMap, Function.comp_def]

theorem combinations_nil : combinations [] = [[]] := rfl

/-- Choices may as well be made from the first column on. -/
theorem combinations_cons (column : List Object) (columns : List (List Object)) :
    combinations (column :: columns) =
      column.flatMap fun x => (combinations columns).map (x :: ·) := by
  rw [combinations, List.foldl_cons, foldl_extended]
  simp [extended, List.flatMap_map]

/-! ## Cursors -/

/-- The state `tuples` combines each object of `heads` with every one of `tails`; the
component lists in `pending` are those left of the current head. -/
inductive Cursor where
  | listed (rest : List Object)
  | counting (set : SetId) (next : Nat)
  | tuples (heads : Cursor) (tails pending : List (List Object))

namespace Cursor

/-- The sets that a cursor keeps in existence. -/
def mentioned : Cursor → List SetId
  | listed _ => []
  | counting set _ => [set]
  | tuples heads _ _ => heads.mentioned

/-! ## Small steps

A step hands out an object, passes over a head that has no tails, or finds that
the enumeration is over. As for substitution, the count of objects created so
far is taken and returned advanced. -/

inductive Step where
  | item (x : Object) (rest : Cursor)
  | skipped (rest : Cursor)
  | finished

def tupleAt (components : List Object) (created : Nat) : Object where
  id := created + 1
  name := tupleName components
  owner := none
  components := components

def naturalAt (set : SetId) (value created : Nat) : Object where
  id := created + 1
  name := toString value
  owner := some set
  components := []

def step : Cursor → Nat → Step × Nat
  | listed [], created => (.finished, created)
  | listed (x :: rest), created => (.item x (listed rest), created)
  | counting set next, created =>
      (.item (naturalAt set next created) (counting set (next + 1)), created + 1)
  | tuples heads tails (components :: pending), created =>
      (.item (tupleAt components created) (tuples heads tails pending), created + 1)
  | tuples heads tails [], created =>
      match heads.step created, tails with
      | (.finished, created), _ => (.finished, created)
      | (.skipped heads, created), _ => (.skipped (tuples heads tails []), created)
      | (.item _ heads, created), [] => (.skipped (tuples heads [] []), created)
      | (.item head heads, created), tail :: others =>
          (.item (tupleAt (head :: tail) created)
            (tuples heads tails (others.map (head :: ·))), created + 1)

/-! ## Pulling

A pull takes steps until one hands out an object or ends the enumeration. A
cursor that comes to this needs no more steps than its `effort`. If heads go on
for ever and none has a tail, no number of steps is enough. Such a pull is given
up as stalled, but only after as many heads as there are numbers of 64 bits, so
nobody sees it return. -/

inductive Pull where
  | item (x : Object) (rest : Cursor)
  | finished
  | stalled

def pullWithin : Nat → Cursor → Nat → Pull × Nat
  | 0, _, created => (.stalled, created)
  | steps + 1, cursor, created =>
      match cursor.step created with
      | (.item x rest, created) => (.item x rest, created)
      | (.skipped rest, created) => pullWithin steps rest created
      | (.finished, created) => (.finished, created)

def effort : Cursor → Nat
  | listed rest => rest.length
  | counting _ _ => Nat.pow 2 64
  | tuples heads tails pending => pending.length + heads.effort * (tails.length + 1)

def pull (cursor : Cursor) (created : Nat) : Pull × Nat :=
  pullWithin (cursor.effort + 1) cursor created

def drainWithin : Nat → Cursor → Nat → List Object × Nat
  | 0, _, created => ([], created)
  | steps + 1, cursor, created =>
      match cursor.step created with
      | (.item x rest, created) =>
          let (others, created) := drainWithin steps rest created
          (x :: others, created)
      | (.skipped rest, created) => drainWithin steps rest created
      | (.finished, created) => ([], created)

/-- All objects of a cursor over a finite set. -/
def drain (cursor : Cursor) (created : Nat) : List Object × Nat :=
  drainWithin cursor.effort cursor created

end Cursor

namespace Kernel

def pull (cursor : Cursor) : Kernel Cursor.Pull :=
  modifyGet fun store =>
    let (result, created) := cursor.pull store.created
    (result, { store with created })

def drain (cursor : Cursor) : Kernel (List Object) :=
  modifyGet fun store =>
    let (objects, created) := cursor.drain store.created
    (objects, { store with created })

/-- Pull up to the given number of objects. A cursor that has come to its end
stays there. -/
def take : Nat → Cursor → Kernel (List Object × Cursor)
  | 0, cursor => return ([], cursor)
  | count + 1, cursor => do
      match ← pull cursor with
      | .item x rest =>
          let (others, rest) ← take count rest
          return (x :: others, rest)
      | .finished => return ([], .listed [])
      | .stalled => return ([], cursor)

/-! ## Starting an enumeration

The factors of a product other than the first are enumerated at once, from left
to right, before the enumeration of the first is started. -/

mutual

def enumerate : Collection → Kernel Cursor
  | .plain id _ => return .listed ((← get).members id)
  | .number (.naturals id) => return .counting id 1
  | .number set => throw (.notIterable (.number set))
  | .product id name [] => throw (.notIterable (.product id name []))
  | .product id name (first :: rest) => do
      if Collection.allFinite rest then
        let columns ← enumerateAll rest
        let heads ← enumerate first
        return .tuples heads (combinations columns) []
      else
        throw (.notIterable (.product id name (first :: rest)))
  | .function id name domain range mapping =>
      throw (.notIterable (.function id name domain range mapping))

def enumerateAll : List Collection → Kernel (List (List Object))
  | [] => return []
  | set :: sets => do
      let cursor ← enumerate set
      let column ← drain cursor
      let columns ← enumerateAll sets
      return column :: columns

end

end Kernel

end Deduction
