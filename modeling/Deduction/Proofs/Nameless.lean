import Deduction.Proofs.Substitution
import Mathlib.Logic.Function.Basic

/-! # Nameless propositions

A proposition up to the choice of its bound variables. An occurrence that a
quantifier binds becomes the number of quantifiers between the two; a free
object keeps its key. Substitution on nameless propositions needs no renaming,
and renaming cannot be seen in them, so they say what substitution is to do. -/

namespace Deduction

/-! ## Nameless form -/

namespace Nameless

inductive Leaf where
  | bound (index : Nat)
  | free (key : Object.Key)
  deriving DecidableEq

/-- The leaf as it is seen from below one more quantifier. -/
def Leaf.under : Leaf → Leaf
  | bound index => bound (index + 1)
  | free key => free key

inductive Argument where
  | object (leaf : Leaf)
  | set (s : Collection)

end Nameless

/-- A quantifier keeps the set that its variable belongs to. -/
inductive Nameless where
  | atom (name : String) (arguments : List Nameless.Argument)
  | falsum
  | binary (left : Nameless) (connective : Connective) (right : Nameless)
  | quantified (quantifier : Quantifier) (owner : Option SetId) (body : Nameless)
  | member (element : Nameless.Leaf) (set : Collection)
  | ordered (left : Nameless.Leaf) (relation : Relation) (right : Nameless.Leaf)

namespace Nameless

/-- What becomes of the objects below some quantifiers. -/
abbrev Scope := Object.Key → Leaf

namespace Scope

/-- Outside of all quantifiers every object is free. -/
def outermost : Scope := Leaf.free

def enter (scope : Scope) (bound : Object.Key) : Scope :=
  fun key => if key = bound then .bound 0 else (scope key).under

end Scope

end Nameless

open Nameless (Leaf Scope)

def Argument.namelessIn (scope : Scope) : Argument → Nameless.Argument
  | object x => .object (scope x.key)
  | set s => .set s

namespace Proposition

def namelessIn (scope : Scope) : Proposition → Nameless
  | atom name arguments => .atom name (arguments.map (Argument.namelessIn scope))
  | falsum => .falsum
  | binary left connective right =>
      .binary (left.namelessIn scope) connective (right.namelessIn scope)
  | quantified quantifier bound body =>
      .quantified quantifier bound.owner (body.namelessIn (scope.enter bound.key))
  | member element set => .member (scope element.key) set
  | ordered left relation right => .ordered (scope left.key) relation (scope right.key)

def nameless (p : Proposition) : Nameless :=
  p.namelessIn .outermost

end Proposition

/-! ## Free leaves -/

namespace Nameless

def Leaf.replaceFree (old new : Object.Key) : Leaf → Leaf
  | bound index => bound index
  | free key => if key = old then free new else free key

def Argument.replaceFree (old new : Object.Key) : Argument → Argument
  | object leaf => object (leaf.replaceFree old new)
  | set s => set s

/-- Replace every free leaf `old` and change nothing else. -/
def replaceFree (old new : Object.Key) : Nameless → Nameless
  | atom name arguments => atom name (arguments.map (Argument.replaceFree old new))
  | falsum => falsum
  | binary left connective right =>
      binary (left.replaceFree old new) connective (right.replaceFree old new)
  | quantified quantifier owner body => quantified quantifier owner (body.replaceFree old new)
  | member element set => member (element.replaceFree old new) set
  | ordered left relation right =>
      ordered (left.replaceFree old new) relation (right.replaceFree old new)

def Argument.leaves : Argument → List Leaf
  | object leaf => [leaf]
  | set _ => []

def leaves : Nameless → List Leaf
  | atom _ arguments => arguments.flatMap Argument.leaves
  | falsum => []
  | binary left _ right => left.leaves ++ right.leaves
  | quantified _ _ body => body.leaves
  | member element _ => [element]
  | ordered left _ right => [left, right]

end Nameless

/-! ## Scopes

What a proposition becomes in a scope depends on its free objects only. Changing
the scope of one object is the same inside and outside of a quantifier, unless
the quantifier binds it. -/

namespace Nameless.Scope

theorem enter_same (scope : Scope) (bound : Object.Key) : scope.enter bound bound = .bound 0 :=
  if_pos rfl

theorem enter_other (scope : Scope) {bound key : Object.Key} (different : key ≠ bound) :
    scope.enter bound key = (scope key).under :=
  if_neg different

theorem enter_update_same (scope : Scope) (bound : Object.Key) (leaf : Leaf) :
    enter (Function.update scope bound leaf) bound = scope.enter bound := by
  funext key
  by_cases isBound : key = bound
  · rw [isBound, enter_same, enter_same]
  · rw [enter_other _ isBound, enter_other _ isBound, Function.update_of_ne isBound]

theorem enter_update_other (scope : Scope) {bound changed : Object.Key} (leaf : Leaf)
    (different : changed ≠ bound) :
    enter (Function.update scope changed leaf) bound =
      Function.update (scope.enter bound) changed leaf.under := by
  funext key
  by_cases isChanged : key = changed
  · subst isChanged
    rw [enter_other _ different, Function.update_self, Function.update_self]
  · rw [Function.update_of_ne isChanged]
    by_cases isBound : key = bound
    · rw [isBound, enter_same, enter_same]
    · rw [enter_other _ isBound, enter_other _ isBound, Function.update_of_ne isChanged]

theorem of_replace (scope : Scope) (x old new : Object) :
    scope (x.replace old new).key = Function.update scope old.key (scope new.key) x.key := by
  rw [Object.key_replace, Function.update_apply]
  split <;> rfl

end Nameless.Scope

namespace Proposition

theorem namelessIn_congr {p : Proposition} {scope scope' : Scope}
    (agree : ∀ x, p.occurs x = true → scope x.key = scope' x.key) :
    p.namelessIn scope = p.namelessIn scope' := by
  induction p generalizing scope scope' with
  | atom name arguments =>
      simp only [namelessIn]
      congr 1
      apply List.map_congr_left
      intro argument member
      cases argument with
      | object x =>
          have occurs : (atom name arguments).occurs x = true :=
            List.any_eq_true.mpr ⟨_, member, Object.beq_iff_key.mpr rfl⟩
          rw [Argument.namelessIn, Argument.namelessIn, agree x occurs]
      | set s => rfl
  | falsum => rfl
  | binary left connective right leftInduction rightInduction =>
      simp only [namelessIn]
      rw [leftInduction fun x inLeft => agree x (Bool.or_eq_true_iff.mpr (.inl inLeft)),
        rightInduction fun x inRight => agree x (Bool.or_eq_true_iff.mpr (.inr inRight))]
  | quantified quantifier bound body induction =>
      simp only [namelessIn]
      rw [induction]
      intro x inBody
      by_cases isBound : x.key = bound.key
      · rw [isBound, Scope.enter_same, Scope.enter_same]
      · have occurs : (quantified quantifier bound body).occurs x = true := by
          simp [Proposition.occurs, Object.beq_eq_false_iff_key.mpr (Ne.symm isBound), inBody]
        rw [Scope.enter_other _ isBound, Scope.enter_other _ isBound, agree x occurs]
  | member element set =>
      rw [namelessIn, namelessIn, agree element (Object.beq_iff_key.mpr rfl)]
  | ordered left relation right =>
      have leftOccurs : (ordered left relation right).occurs left = true :=
        Bool.or_eq_true_iff.mpr (.inl (Object.beq_iff_key.mpr rfl))
      have rightOccurs : (ordered left relation right).occurs right = true :=
        Bool.or_eq_true_iff.mpr (.inr (Object.beq_iff_key.mpr rfl))
      rw [namelessIn, namelessIn, agree left leftOccurs, agree right rightOccurs]

theorem namelessIn_update_of_not_occurs {p : Proposition} {x : Object}
    (not : p.occurs x = false) (scope : Scope) (leaf : Leaf) :
    p.namelessIn (Function.update scope x.key leaf) = p.namelessIn scope := by
  apply namelessIn_congr
  intro y occurs
  apply Function.update_of_ne
  intro same
  have equal : p.occurs x = p.occurs y := occurs_congr same.symm
  rw [not, occurs] at equal
  exact Bool.false_ne_true equal

/-! ## Substitution as a change of scope -/

theorem namelessIn_substitute {p : Proposition} {old new : Object} {created : Nat}
    (precedes : p.Precedes created) (oldPrecedes : old.key.Precedes created)
    (newPrecedes : new.key.Precedes created) (scope : Scope) :
    (p.substitute old new created).1.namelessIn scope =
      p.namelessIn (Function.update scope old.key (scope new.key)) := by
  induction p, old, new, created using substitute_induction generalizing scope with
  | atom name arguments old new created =>
      rw [substitute_atom]
      simp only [namelessIn, List.map_map]
      congr 1
      apply List.map_congr_left
      intro argument member
      cases argument with
      | object x => exact congrArg Nameless.Argument.object (scope.of_replace x old new)
      | set s => rfl
  | falsum old new created => simp [namelessIn]
  | binary left connective right old new created leftInduction rightInduction =>
      have parts := List.forall_mem_append.mp precedes
      have le := le_count_substitute left old new created
      rw [substitute_binary]
      simp only [namelessIn]
      rw [leftInduction parts.1 oldPrecedes newPrecedes,
        rightInduction (fun x member => (parts.2 x member).mono le) (oldPrecedes.mono le)
          (newPrecedes.mono le)]
  | bound quantifier bound body old new created isOld =>
      rw [substitute_bound isOld]
      simp only [namelessIn]
      rw [← isOld, Scope.enter_update_same]
  | captured quantifier bound body old new created notOld isNew occurs first firstInduction
      secondInduction =>
      have parts := List.forall_mem_cons.mp precedes
      have bodyPrecedes : body.Precedes created := parts.2
      have boundPrecedes : bound.key.Precedes (created + 1) := parts.1.mono (Nat.le_succ created)
      have freshPrecedes : (bound.renamed created).key.Precedes (created + 1) := by
        rw [Object.key_renamed]
        exact Nat.le_refl (created + 1)
      have firstLe : created ≤ first.2 := Nat.le_of_succ_le (le_count_substitute _ _ _ _)
      have firstPrecedes : first.1.Precedes first.2 :=
        (bodyPrecedes.mono (Nat.le_succ created)).substitute freshPrecedes
      have notFresh : ∀ {key : Object.Key},
          key.Precedes created → key ≠ (bound.renamed created).key :=
        fun keyPrecedes => by
          rw [Object.key_renamed]
          exact keyPrecedes.ne_next
      rw [substitute_captured notOld isNew occurs]
      simp only [namelessIn]
      -- Both passes change the scope below the quantifier; the new variable, which the
      -- first pass puts in place of the bound one, does not occur in the body.
      rw [secondInduction firstPrecedes (oldPrecedes.mono firstLe) (newPrecedes.mono firstLe),
        firstInduction (bodyPrecedes.mono (Nat.le_succ created)) boundPrecedes freshPrecedes]
      congr 1
      rw [Function.update_of_ne (notFresh oldPrecedes).symm, Scope.enter_same,
        Scope.enter_other _ (notFresh newPrecedes)]
      apply namelessIn_congr
      intro x inBody
      have notRenamed := notFresh (bodyPrecedes.of_occurs inBody)
      by_cases isBound : x.key = bound.key
      · rw [isBound, Function.update_self, Scope.enter_same]
      · rw [Function.update_of_ne isBound, Scope.enter_update_other _ _ (Ne.symm notOld)]
        by_cases isOld : x.key = old.key
        · rw [isOld, Function.update_self, Function.update_self]
        · rw [Function.update_of_ne isOld, Function.update_of_ne isOld,
            Scope.enter_other _ isBound, Scope.enter_other _ notRenamed]
  | inside quantifier bound body old new created notOld notCaptured induction =>
      have parts := List.forall_mem_cons.mp precedes
      rw [substitute_inside notOld notCaptured]
      simp only [namelessIn]
      rw [induction parts.2 oldPrecedes newPrecedes]
      congr 1
      rw [Scope.enter_update_other _ _ (Ne.symm notOld)]
      by_cases isNew : bound.key = new.key
      · -- The replacement is bound here, but there is nothing to replace.
        rw [namelessIn_update_of_not_occurs (notCaptured isNew),
          namelessIn_update_of_not_occurs (notCaptured isNew)]
      · rw [Scope.enter_other _ (Ne.symm isNew)]
  | member element set old new created =>
      rw [substitute_member, namelessIn, namelessIn, scope.of_replace element]
  | ordered left relation right old new created =>
      rw [substitute_ordered, namelessIn, namelessIn, scope.of_replace left, scope.of_replace right]

/-! ## Free leaves

The scopes that arise below quantifiers keep free objects apart, so a leaf is
free exactly where its object occurs free. -/

end Proposition

namespace Nameless

theorem Leaf.replaceFree_under (leaf : Leaf) (old new : Object.Key) :
    leaf.under.replaceFree old new = (leaf.replaceFree old new).under := by
  cases leaf with
  | bound index => rfl
  | free key =>
      simp only [under, replaceFree]
      split <;> rfl

theorem Scope.enter_replaceFree (scope : Scope) (bound old new : Object.Key) :
    (fun key => (scope.enter bound key).replaceFree old new) =
      enter (fun key => (scope key).replaceFree old new) bound := by
  funext key
  by_cases isBound : key = bound
  · rw [isBound, enter_same, enter_same]
    rfl
  · rw [enter_other _ isBound, enter_other _ isBound, Leaf.replaceFree_under]

theorem Scope.outermost_replaceFree (old new : Object.Key) :
    (fun key => (outermost key).replaceFree old new) =
      Function.update outermost old (outermost new) := by
  funext key
  rw [Function.update_apply]
  rfl

end Nameless

namespace Proposition

theorem replaceFree_namelessIn (p : Proposition) (scope : Scope) (old new : Object.Key) :
    (p.namelessIn scope).replaceFree old new =
      p.namelessIn fun key => (scope key).replaceFree old new := by
  induction p generalizing scope with
  | atom name arguments =>
      simp only [namelessIn, Nameless.replaceFree, List.map_map]
      congr 1
      apply List.map_congr_left
      intro argument member
      cases argument <;> rfl
  | falsum => rfl
  | binary left connective right leftInduction rightInduction =>
      simp only [namelessIn, Nameless.replaceFree]
      rw [leftInduction, rightInduction]
  | quantified quantifier bound body induction =>
      simp only [namelessIn, Nameless.replaceFree]
      rw [induction, Scope.enter_replaceFree]
  | member element set => rfl
  | ordered left relation right => rfl

theorem free_mem_leaves_namelessIn {x : Object} (p : Proposition) {scope : Scope}
    (apart : ∀ key, scope key = .free x.key → key = x.key) :
    .free x.key ∈ (p.namelessIn scope).leaves ↔
      p.occurs x = true ∧ scope x.key = .free x.key := by
  have leaf : ∀ {scope : Scope} (y : Object), (∀ key, scope key = .free x.key → key = x.key) →
      (.free x.key = scope y.key ↔ (y == x) = true ∧ scope x.key = .free x.key) := by
    intro scope y apart
    rw [Object.beq_iff_key]
    constructor
    · intro isFree
      have same := apart y.key isFree.symm
      exact ⟨same, same ▸ isFree.symm⟩
    · intro both
      rw [both.1, both.2]
  induction p generalizing scope with
  | atom name arguments =>
      simp only [namelessIn, Nameless.leaves, List.flatMap_map, List.mem_flatMap]
      constructor
      · rintro ⟨argument, member, isLeaf⟩
        cases argument with
        | object y =>
            have both := (leaf y apart).mp (List.mem_singleton.mp isLeaf)
            exact ⟨List.any_eq_true.mpr ⟨_, member, both.1⟩, both.2⟩
        | set s => cases isLeaf
      · rintro ⟨occurs, isFree⟩
        obtain ⟨argument, member, isObject⟩ := List.any_eq_true.mp occurs
        cases argument with
        | object y =>
            exact ⟨_, member, List.mem_singleton.mpr ((leaf y apart).mpr ⟨isObject, isFree⟩)⟩
        | set s => cases isObject
  | falsum => simp [namelessIn, Nameless.leaves, occurs]
  | binary left connective right leftInduction rightInduction =>
      simp only [namelessIn, Nameless.leaves, List.mem_append, leftInduction apart,
        rightInduction apart, occurs, Bool.or_eq_true]
      rw [or_and_right]
  | quantified quantifier bound body induction =>
      have inner : ∀ key, scope.enter bound.key key = .free x.key → key = x.key := by
        intro key isFree
        by_cases isBound : key = bound.key
        · rw [isBound, Scope.enter_same] at isFree
          cases isFree
        · rw [Scope.enter_other _ isBound] at isFree
          apply apart
          cases below : scope key with
          | bound index =>
              rw [below] at isFree
              cases isFree
          | free other =>
              rw [below] at isFree
              exact isFree
      refine (induction inner).trans ?_
      by_cases isBound : x.key = bound.key
      · simp [occurs, isBound, Scope.enter_same, Object.beq_iff_key.mpr isBound.symm]
      · have seen : (scope x.key).under = .free x.key ↔ scope x.key = .free x.key := by
          cases scope x.key <;> simp [Nameless.Leaf.under]
        simp [occurs, Scope.enter_other _ isBound, seen,
          Object.beq_eq_false_iff_key.mpr (Ne.symm isBound)]
  | member element set =>
      simp only [namelessIn, Nameless.leaves, List.mem_singleton]
      exact leaf element apart
  | ordered left relation right =>
      simp only [namelessIn, Nameless.leaves, List.mem_cons, List.not_mem_nil, or_false,
        leaf left apart, leaf right apart, occurs, Bool.or_eq_true]
      rw [or_and_right]

/-! ## The meaning of substitution -/

/-- Substitution replaces the free leaves that are `old` and nothing else, and the
objects that occur are the free leaves, provided that all unnamed objects
involved were created before. -/
theorem nameless_substitute_eq_replaceFree (p : Proposition) (old new : Object) (created : Nat)
    (precedes : p.Precedes created) (oldPrecedes : old.key.Precedes created)
    (newPrecedes : new.key.Precedes created) :
    (p.substitute old new created).1.nameless = p.nameless.replaceFree old.key new.key ∧
      ∀ x : Object, p.occurs x = true ↔ .free x.key ∈ p.nameless.leaves := by
  constructor
  · calc (p.substitute old new created).1.nameless
        = p.namelessIn (Function.update Scope.outermost old.key (Scope.outermost new.key)) :=
          namelessIn_substitute precedes oldPrecedes newPrecedes Scope.outermost
      _ = p.nameless.replaceFree old.key new.key := by
          rw [nameless, replaceFree_namelessIn, Scope.outermost_replaceFree]
  · intro x
    have apart : ∀ key, Scope.outermost key = .free x.key → key = x.key :=
      fun key isFree => Leaf.free.inj isFree
    rw [nameless, free_mem_leaves_namelessIn p apart]
    exact ⟨fun occurs => ⟨occurs, rfl⟩, And.left⟩

/-- The variable of `∃v, x < v` gives way when an unnamed `v` replaces `x`. -/
theorem nameless_substitute_of_captured :
    ((quantified .existential ⟨2, "", none, []⟩
        (ordered ⟨1, "x", none, []⟩ .less ⟨2, "", none, []⟩)).substitute
      ⟨1, "x", none, []⟩ ⟨2, "", none, []⟩ 2).1.nameless =
      .quantified .existential none (.ordered (.free (.unnamed 2)) .less (.bound 0)) := by
  have precedes : Precedes 2 (quantified .existential ⟨2, "", none, []⟩
      (ordered ⟨1, "x", none, []⟩ .less ⟨2, "", none, []⟩)) := by
    simp [Precedes, objects, Object.key, Object.Key.Precedes]
  exact (nameless_substitute_eq_replaceFree _ ⟨1, "x", none, []⟩ ⟨2, "", none, []⟩ 2
    precedes trivial (Nat.le_refl 2)).1

end Proposition

end Deduction
