import Deduction.Proofs.Equality
import Deduction.Proofs.Nameless
import Mathlib.Data.List.Zip

/-! # Interpretations

The classical meaning of propositions. An interpretation says which atoms,
memberships and orderings hold between values and over which values a bound
variable ranges; an assignment gives a value to every object, equal objects
having the same value. -/

namespace Deduction

universe u

variable {D : Type u}

/-- An argument of an atom refers to a value or, being a set, for its name. -/
inductive Referent (D : Type u) where
  | value (d : D)
  | set (name : String)

structure Interpretation (D : Type u) where
  atom : String → List (Referent D) → Prop
  member : D → String → Prop
  ordered : Relation → D → D → Prop
  /-- The values of a bound variable, given the set it belongs to. -/
  range : Option SetId → D → Prop

abbrev Assignment (D : Type u) := Object.Key → D

def Argument.referent (values : Assignment D) : Argument → Referent D
  | object x => .value (values x.key)
  | set s => .set s.name

def Connective.combine : Connective → Prop → Prop → Prop
  | implies, left, right => left → right
  | and, left, right => left ∧ right
  | or, left, right => left ∨ right
  | equivalent, left, right => left ↔ right

def Quantifier.over (range : D → Prop) : Quantifier → (D → Prop) → Prop
  | universal, body => ∀ d, range d → body d
  | existential, body => ∃ d, range d ∧ body d

namespace Interpretation

def Holds (I : Interpretation D) (values : Assignment D) : Proposition → Prop
  | .atom name arguments => I.atom name (arguments.map (Argument.referent values))
  | .falsum => False
  | .binary left connective right =>
      connective.combine (I.Holds values left) (I.Holds values right)
  | .quantified quantifier bound body =>
      quantifier.over (I.range bound.owner) fun d =>
        I.Holds (Function.update values bound.key d) body
  | .member element set => I.member (values element.key) set.name
  | .ordered left relation right => I.ordered relation (values left.key) (values right.key)

/-- Every bound variable ranges over the whole domain. -/
def Unrestricted (I : Interpretation D) : Prop :=
  ∀ owner d, I.range owner d

/-! ## Connectives -/

variable (I : Interpretation D) (values : Assignment D)

@[simp] theorem holds_falsum : ¬I.Holds values .falsum :=
  id

@[simp] theorem holds_implies (left right : Proposition) :
    I.Holds values (left.implies right) ↔ (I.Holds values left → I.Holds values right) :=
  Iff.rfl

@[simp] theorem holds_and (left right : Proposition) :
    I.Holds values (left.and right) ↔ I.Holds values left ∧ I.Holds values right :=
  Iff.rfl

@[simp] theorem holds_or (left right : Proposition) :
    I.Holds values (left.or right) ↔ I.Holds values left ∨ I.Holds values right :=
  Iff.rfl

@[simp] theorem holds_equivalent (left right : Proposition) :
    I.Holds values (left.equivalent right) ↔ (I.Holds values left ↔ I.Holds values right) :=
  Iff.rfl

/-- Collapsing double negations is sound because the logic is classical. -/
@[simp] theorem holds_not (p : Proposition) : I.Holds values p.not ↔ ¬I.Holds values p := by
  unfold Proposition.not
  split
  · exact not_not.symm
  · exact Iff.rfl

/-! ## Free objects

Only the values of the objects that occur free matter. -/

theorem holds_congr {p : Proposition} {values values' : Assignment D}
    (agree : ∀ x, p.occurs x = true → values x.key = values' x.key) :
    I.Holds values p ↔ I.Holds values' p := by
  induction p generalizing values values' with
  | atom name arguments =>
      have referents : arguments.map (Argument.referent values) =
          arguments.map (Argument.referent values') := by
        apply List.map_congr_left
        intro argument member
        cases argument with
        | object x =>
            exact congrArg Referent.value
              (agree x (List.any_eq_true.mpr ⟨_, member, Object.beq_iff_key.mpr rfl⟩))
        | set s => rfl
      simp only [Holds]
      rw [referents]
  | falsum => exact Iff.rfl
  | binary left connective right leftInduction rightInduction =>
      simp only [Holds]
      rw [leftInduction fun x inLeft => agree x (Bool.or_eq_true_iff.mpr (.inl inLeft)),
        rightInduction fun x inRight => agree x (Bool.or_eq_true_iff.mpr (.inr inRight))]
  | quantified quantifier bound body induction =>
      have bodies : ∀ d, I.Holds (Function.update values bound.key d) body ↔
          I.Holds (Function.update values' bound.key d) body := by
        intro d
        apply induction
        intro x inBody
        by_cases isBound : x.key = bound.key
        · rw [isBound, Function.update_self, Function.update_self]
        · rw [Function.update_of_ne isBound, Function.update_of_ne isBound]
          apply agree
          simp [Proposition.occurs, Object.beq_eq_false_iff_key.mpr (Ne.symm isBound), inBody]
      simp only [Holds, bodies]
  | member element set =>
      simp only [Holds]
      rw [agree element (Object.beq_iff_key.mpr rfl)]
  | ordered left relation right =>
      simp only [Holds]
      rw [agree left (Bool.or_eq_true_iff.mpr (.inl (Object.beq_iff_key.mpr rfl))),
        agree right (Bool.or_eq_true_iff.mpr (.inr (Object.beq_iff_key.mpr rfl)))]

theorem holds_update_of_not_occurs {p : Proposition} {x : Object}
    (not : p.occurs x = false) (d : D) :
    I.Holds (Function.update values x.key d) p ↔ I.Holds values p := by
  apply holds_congr
  intro y occurs
  apply Function.update_of_ne
  intro same
  rw [Proposition.occurs_congr same.symm, occurs] at not
  exact Bool.false_ne_true not.symm

/-! ## Equal propositions

Equality of propositions passes over the sets that bound variables belong to. So
equal propositions mean the same if these sets give the variables the same ranges. -/

theorem referent_of_beq {left right : Argument} (equal : (left == right) = true) :
    left.referent values = right.referent values := by
  rcases Argument.cases_of_beq equal with ⟨x, y, rfl, rfl, sameKey⟩ | ⟨s, t, rfl, rfl, sameName⟩
  · exact congrArg (fun key => Referent.value (values key)) sameKey
  · exact congrArg Referent.set sameName

/-- The bound variables of the two propositions have the same ranges, place by place. -/
def RangesAlike (p q : Proposition) : Prop :=
  ∀ owners ∈ p.owners.zip q.owners, I.range owners.1 = I.range owners.2

theorem Unrestricted.rangesAlike {I : Interpretation D} (unrestricted : I.Unrestricted)
    (p q : Proposition) : I.RangesAlike p q := by
  intro owners _
  funext d
  exact propext ⟨fun _ => unrestricted _ d, fun _ => unrestricted _ d⟩

variable {I} in
theorem RangesAlike.symm {p q : Proposition} (alike : I.RangesAlike p q) : I.RangesAlike q p := by
  intro owners member
  have swapped : owners.swap ∈ p.owners.zip q.owners := by
    rw [← List.zip_swap]
    exact List.mem_map_of_mem member
  exact (alike _ swapped).symm

theorem holds_of_beq {p q : Proposition} (equal : (p == q) = true) (alike : I.RangesAlike p q) :
    I.Holds values p ↔ I.Holds values q := by
  induction p generalizing q values with
  | atom name arguments =>
      obtain ⟨arguments', rfl, argumentsEqual⟩ := Proposition.eq_of_atom_beq equal
      simp only [Holds]
      rw [Argument.map_eq_of_beq (referent_of_beq values) argumentsEqual]
  | falsum => rw [Proposition.eq_of_falsum_beq equal]
  | binary left connective right leftInduction rightInduction =>
      obtain ⟨left', right', rfl, leftEqual, rightEqual⟩ := Proposition.eq_of_binary_beq equal
      have parts : (left.owners ++ right.owners).zip (left'.owners ++ right'.owners) =
          left.owners.zip left'.owners ++ right.owners.zip right'.owners :=
        List.zip_append (Proposition.length_owners_of_beq leftEqual)
      have partsAlike : I.RangesAlike left left' ∧ I.RangesAlike right right' := by
        rw [RangesAlike, Proposition.owners, Proposition.owners, parts] at alike
        exact List.forall_mem_append.mp alike
      simp only [Holds]
      rw [leftInduction values leftEqual partsAlike.1,
        rightInduction values rightEqual partsAlike.2]
  | quantified quantifier bound body induction =>
      obtain ⟨bound', body', rfl, sameKey, bodyEqual⟩ := Proposition.eq_of_quantified_beq equal
      have partsAlike : I.range bound.owner = I.range bound'.owner ∧ I.RangesAlike body body' :=
        List.forall_mem_cons.mp alike
      simp only [Holds, partsAlike.1, sameKey, induction _ bodyEqual partsAlike.2]
  | member element set =>
      obtain ⟨element', set', rfl, sameKey, sameName⟩ := Proposition.eq_of_member_beq equal
      simp only [Holds]
      rw [sameKey, sameName]
  | ordered left relation right =>
      obtain ⟨left', right', rfl, leftKey, rightKey⟩ := Proposition.eq_of_ordered_beq equal
      simp only [Holds]
      rw [leftKey, rightKey]

end Interpretation

/-! ## Substitution

A nameless proposition is read with values for its leaves. Since substitution is a
change of scope there, it is a change of the assignment here. -/

namespace Nameless

/-- The values of leaves outside of all quantifiers; no index has a meaning there. -/
def valued (values : Assignment D) (other : D) : Leaf → D
  | .bound _ => other
  | .free key => values key

/-- The values of leaves below a quantifier whose variable has the value `d`. -/
def extend (leaves : Leaf → D) (d : D) : Leaf → D
  | .bound 0 => d
  | .bound (index + 1) => leaves (.bound index)
  | .free key => leaves (.free key)

def Argument.referent (leaves : Leaf → D) : Argument → Referent D
  | object leaf => .value (leaves leaf)
  | set s => .set s.name

def Holds (I : Interpretation D) (leaves : Leaf → D) : Nameless → Prop
  | atom name arguments => I.atom name (arguments.map (Argument.referent leaves))
  | falsum => False
  | binary left connective right => connective.combine (left.Holds I leaves) (right.Holds I leaves)
  | quantified quantifier owner body =>
      quantifier.over (I.range owner) fun d => body.Holds I (extend leaves d)
  | member element set => I.member (leaves element) set.name
  | ordered left relation right => I.ordered relation (leaves left) (leaves right)

theorem extend_enter (leaves : Leaf → D) (d : D) (scope : Scope) (bound : Object.Key) :
    (fun key => extend leaves d (scope.enter bound key)) =
      Function.update (fun key => leaves (scope key)) bound d := by
  funext key
  by_cases isBound : key = bound
  · rw [isBound, Scope.enter_same, Function.update_self]
    rfl
  · rw [Scope.enter_other _ isBound, Function.update_of_ne isBound]
    cases scope key <;> rfl

end Nameless

namespace Interpretation

variable (I : Interpretation D) (values : Assignment D)

theorem holds_namelessIn (p : Proposition) (leaves : Nameless.Leaf → D) (scope : Nameless.Scope) :
    (p.namelessIn scope).Holds I leaves ↔ I.Holds (fun key => leaves (scope key)) p := by
  induction p generalizing leaves scope with
  | atom name arguments =>
      have referents : (arguments.map (Argument.namelessIn scope)).map
          (Nameless.Argument.referent leaves) =
          arguments.map (Argument.referent fun key => leaves (scope key)) := by
        rw [List.map_map]
        apply List.map_congr_left
        intro argument member
        cases argument <;> rfl
      simp only [Proposition.namelessIn, Nameless.Holds, Holds]
      rw [referents]
  | falsum => exact Iff.rfl
  | binary left connective right leftInduction rightInduction =>
      simp only [Proposition.namelessIn, Nameless.Holds, Holds]
      rw [leftInduction, rightInduction]
  | quantified quantifier bound body induction =>
      simp only [Proposition.namelessIn, Nameless.Holds, Holds, induction, Nameless.extend_enter]
  | member element set => exact Iff.rfl
  | ordered left relation right => exact Iff.rfl

theorem holds_substitute {p : Proposition} {old new : Object} {created : Nat}
    (precedes : p.Precedes created) (oldPrecedes : old.key.Precedes created)
    (newPrecedes : new.key.Precedes created) :
    I.Holds values (p.substitute old new created).1 ↔
      I.Holds (Function.update values old.key (values new.key)) p := by
  let leaves := Nameless.valued values (values old.key)
  have changed : (fun key => leaves (Function.update Nameless.Scope.outermost old.key
      (Nameless.Scope.outermost new.key) key)) =
      Function.update values old.key (values new.key) := by
    funext key
    by_cases isOld : key = old.key
    · rw [isOld, Function.update_self, Function.update_self]
      rfl
    · rw [Function.update_of_ne isOld, Function.update_of_ne isOld]
      rfl
  -- Both sides are the truth of one nameless proposition, read in two scopes.
  have before := I.holds_namelessIn (p.substitute old new created).1 leaves Nameless.Scope.outermost
  have after := I.holds_namelessIn p leaves
    (Function.update Nameless.Scope.outermost old.key (Nameless.Scope.outermost new.key))
  rw [Proposition.namelessIn_substitute precedes oldPrecedes newPrecedes] at before
  rw [changed] at after
  exact before.symm.trans after

end Interpretation

end Deduction
