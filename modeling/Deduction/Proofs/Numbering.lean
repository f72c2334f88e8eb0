import Deduction.Proofs.Rules

/-! # Numbering

Objects are created one at a time: as such, as new variables of a substitution, or by a cursor
that hands them out. Whatever an operation consists of, and also if it is refused, the objects
it creates are numbered on from where the store has come to. -/

namespace Deduction

/-! ## Enumeration -/

namespace Cursor

/-- The objects that a step creates, in order. -/
def creations : Cursor → Nat → List Object
  | listed _, _ => []
  | counting set next, created => [naturalAt set next created]
  | tuples _ _ (components :: _), created => [tupleAt components created]
  | tuples heads tails [], created =>
      heads.creations created ++
        match heads.step created, tails with
        | (.item head _, created), tail :: _ => [tupleAt (head :: tail) created]
        | _, _ => []

theorem numbered_creations (cursor : Cursor) (created : Nat) :
    Object.Numbered created (cursor.creations created) (cursor.step created).2 := by
  induction cursor with
  | listed rest => cases rest <;> exact .nil created
  | counting set next => exact .cons rfl (.nil _)
  | tuples heads tails pending induction =>
      cases pending with
      | cons components pending => exact .cons rfl (.nil _)
      | nil =>
          rcases stepped : heads.step created with ⟨⟨head, rest⟩ | rest | _, count⟩ <;>
            rw [stepped] at induction
          · cases tails with
            | nil =>
                simp only [creations, step, stepped]
                exact induction.append (.nil count)
            | cons tail others =>
                simp only [creations, step, stepped]
                exact induction.concat rfl
          · simp only [creations, step, stepped]
            exact induction.append (.nil count)
          · simp only [creations, step, stepped]
            exact induction.append (.nil count)

/-- The objects created by the given number of steps, if the enumeration does not end before.
A pull ends at the first object that is handed out; to drain a cursor is to go on. -/
def creationsWithin (drains : Bool) : Nat → Cursor → Nat → List Object
  | 0, _, _ => []
  | steps + 1, cursor, created =>
      cursor.creations created ++
        match cursor.step created with
        | (.item _ rest, created) => if drains then creationsWithin drains steps rest created else []
        | (.skipped rest, created) => creationsWithin drains steps rest created
        | (.finished, _) => []

theorem numbered_pullWithin (steps : Nat) (cursor : Cursor) (created : Nat) :
    Object.Numbered created (creationsWithin false steps cursor created)
      (pullWithin steps cursor created).2 := by
  induction steps generalizing cursor created with
  | zero => exact .nil created
  | succ steps induction =>
      have numbered := cursor.numbered_creations created
      rw [creationsWithin, pullWithin]
      rcases stepped : cursor.step created with ⟨⟨x, rest⟩ | rest | _, count⟩ <;>
        rw [stepped] at numbered
      · exact numbered.append (.nil count)
      · exact numbered.append (induction rest count)
      · exact numbered.append (.nil count)

theorem numbered_drainWithin (steps : Nat) (cursor : Cursor) (created : Nat) :
    Object.Numbered created (creationsWithin true steps cursor created)
      (drainWithin steps cursor created).2 := by
  induction steps generalizing cursor created with
  | zero => exact .nil created
  | succ steps induction =>
      have numbered := cursor.numbered_creations created
      rw [creationsWithin, drainWithin]
      rcases stepped : cursor.step created with ⟨⟨x, rest⟩ | rest | _, count⟩ <;>
        rw [stepped] at numbered
      · exact numbered.append (induction rest count)
      · exact numbered.append (induction rest count)
      · exact numbered.append (.nil count)

end Cursor

/-! ## Operations -/

namespace Kernel

/-- The objects that an operation creates when it is started on the store, in order. Of an
object that the operation drops, nothing is determined but the number: two operations that
differ only in what they drop are the same. -/
inductive Creates : {α : Type} → Kernel α → Store → List Object → Prop
  | silent {α : Type} {action : Kernel α} {store : Store} :
      (outcome action store).2.created = store.created → Creates action store []
  | create {name : String} {owner : Option SetId} {components : List Object} {x : Object}
      {store after : Store} :
      outcome (create name owner components) store = (.ok x, after) →
      Creates (create name owner components) store [x]
  | substitute {p : Proposition} {old new : Object} {renamings : List Object} {store : Store} :
      p.Introduces old new store.created renamings →
      Creates (substitute p old new) store renamings
  | pull {cursor : Cursor} {store : Store} :
      Creates (pull cursor) store
        (cursor.creationsWithin false (cursor.effort + 1) store.created)
  | drain {cursor : Cursor} {store : Store} :
      Creates (drain cursor) store (cursor.creationsWithin true cursor.effort store.created)
  | bind {α β : Type} {action : Kernel α} {next : α → Kernel β} {a : α} {store middle : Store}
      {first second : List Object} :
      Creates action store first → outcome action store = (.ok a, middle) →
      Creates (next a) middle second → Creates (action >>= next) store (first ++ second)
  | refused {α β : Type} {action : Kernel α} {next : α → Kernel β} {fault : Fault}
      {store middle : Store} {objects : List Object} :
      Creates action store objects → outcome action store = (.error fault, middle) →
      Creates (action >>= next) store objects

theorem Creates.numbered {α : Type} {action : Kernel α} {store : Store} {objects : List Object}
    (creates : Creates action store objects) :
    Object.Numbered store.created objects (outcome action store).2.created := by
  induction creates with
  | silent same => exact same ▸ .nil _
  | create performed =>
      cases performed
      exact .cons rfl (.nil _)
  | substitute introduces => exact introduces.numbered
  | pull => exact Cursor.numbered_pullWithin ..
  | drain => exact Cursor.numbered_drainWithin ..
  | bind _ performed _ firstNumbered secondNumbered =>
      rw [performed] at firstNumbered
      rw [outcome_bind_of_ok performed]
      exact firstNumbered.append secondNumbered
  | refused _ performed numbered =>
      rw [performed] at numbered
      rw [outcome_bind_of_error performed]
      exact numbered

end Kernel

end Deduction
