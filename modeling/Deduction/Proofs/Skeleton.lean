import Deduction.Proofs.Substitution

/-! # The recursion of substitution

To rename a bound variable, substitution first puts the new variable into the body and then
goes on with the result, which is no part of the proposition. The recursion ends all the
same. This is shown of its rules alone, as a relation between calls and results: whatever
they return has the skeleton of the proposition, so that every call is made on fewer nodes
than the one it serves. -/

namespace Deduction

/-! ## Skeletons

A skeleton keeps all of a proposition but the objects. Of the variable of a quantifier it
keeps the reference to a set, whether or not that set still exists. -/

def Object.blank (owner : Option SetId) : Object := ⟨0, "", owner, []⟩

def Argument.skeleton : Argument → Argument
  | object _ => object (.blank none)
  | set s => set s

namespace Proposition

def skeleton : Proposition → Proposition
  | atom name arguments => atom name (arguments.map Argument.skeleton)
  | falsum => falsum
  | binary left connective right => binary left.skeleton connective right.skeleton
  | quantified quantifier bound body => quantified quantifier (.blank bound.owner) body.skeleton
  | member _ set => member (.blank none) set
  | ordered _ relation _ => ordered (.blank none) relation (.blank none)

theorem size_skeleton (p : Proposition) : p.skeleton.size = p.size := by
  induction p with
  | binary left connective right leftInduction rightInduction =>
      rw [skeleton, size, size, leftInduction, rightInduction]
  | quantified quantifier bound body induction => rw [skeleton, size, size, induction]
  | _ => rfl

theorem owners_skeleton (p : Proposition) : p.skeleton.owners = p.owners := by
  induction p with
  | binary left connective right leftInduction rightInduction =>
      rw [skeleton, owners, owners, leftInduction, rightInduction]
  | quantified quantifier bound body induction =>
      rw [skeleton, owners, owners, induction]
      rfl
  | _ => rfl

theorem sets_skeleton (p : Proposition) : p.skeleton.sets = p.sets := by
  induction p with
  | atom name arguments =>
      have unchanged : ∀ argument : Argument, argument.skeleton.sets = argument.sets :=
        fun argument => by cases argument <;> rfl
      simp [skeleton, sets, List.flatMap_map, unchanged]
  | binary left connective right leftInduction rightInduction =>
      rw [skeleton, sets, sets, leftInduction, rightInduction]
  | quantified quantifier bound body induction => exact induction
  | _ => rfl

end Proposition

theorem Argument.skeleton_replace (old new : Object) (argument : Argument) :
    (argument.replace old new).skeleton = argument.skeleton := by
  cases argument <;> rfl

/-! ## Calls and results -/

/-- A call of substitution: `new` is to stand for `old` in the target, and `created` objects
have been created before. -/
structure Substitution where
  target : Proposition
  old : Object
  new : Object
  created : Nat

namespace Substitution

open Proposition

/-- The rules of substitution, one for each of its branches. Nothing in them says that every
call has a result. -/
inductive Returns : Substitution → Proposition × Nat → Prop
  | atom {name : String} {arguments : List Argument} {old new : Object} {created : Nat} :
      Returns ⟨.atom name arguments, old, new, created⟩
        (.atom name (arguments.map (Argument.replace old new)), created)
  | falsum {old new : Object} {created : Nat} :
      Returns ⟨.falsum, old, new, created⟩ (.falsum, created)
  | binary {left right : Proposition} {connective : Connective} {old new : Object} {created : Nat}
      {first second : Proposition × Nat} :
      Returns ⟨left, old, new, created⟩ first → Returns ⟨right, old, new, first.2⟩ second →
      Returns ⟨.binary left connective right, old, new, created⟩
        (.binary first.1 connective second.1, second.2)
  | bound {quantifier : Quantifier} {bound old new : Object} {body : Proposition}
      {created : Nat} :
      bound.key = old.key →
      Returns ⟨.quantified quantifier bound body, old, new, created⟩
        (.quantified quantifier bound body, created)
  | captured {quantifier : Quantifier} {bound old new : Object} {body : Proposition}
      {created : Nat} {first second : Proposition × Nat} :
      bound.key ≠ old.key → bound.key = new.key → body.occurs old = true →
      Returns ⟨body, bound, bound.renamed created, created + 1⟩ first →
      Returns ⟨first.1, old, new, first.2⟩ second →
      Returns ⟨.quantified quantifier bound body, old, new, created⟩
        (.quantified quantifier (bound.renamed created) second.1, second.2)
  | inside {quantifier : Quantifier} {bound old new : Object} {body : Proposition}
      {created : Nat} {inner : Proposition × Nat} :
      bound.key ≠ old.key → (bound.key = new.key → body.occurs old = false) →
      Returns ⟨body, old, new, created⟩ inner →
      Returns ⟨.quantified quantifier bound body, old, new, created⟩
        (.quantified quantifier bound inner.1, inner.2)
  | member {element old new : Object} {set : Collection} {created : Nat} :
      Returns ⟨.member element set, old, new, created⟩
        (.member (element.replace old new) set, created)
  | ordered {left right old new : Object} {relation : Relation} {created : Nat} :
      Returns ⟨.ordered left relation right, old, new, created⟩
        (.ordered (left.replace old new) relation (right.replace old new), created)

/-- The first call is made in order to answer the second. A call may depend on the result of
one that was made before. -/
inductive Calls : Substitution → Substitution → Prop
  | left {left right : Proposition} {connective : Connective} {old new : Object} {created : Nat} :
      Calls ⟨left, old, new, created⟩ ⟨.binary left connective right, old, new, created⟩
  | right {left right : Proposition} {connective : Connective} {old new : Object} {created : Nat}
      {first : Proposition × Nat} :
      Returns ⟨left, old, new, created⟩ first →
      Calls ⟨right, old, new, first.2⟩ ⟨.binary left connective right, old, new, created⟩
  | firstPass {quantifier : Quantifier} {bound old new : Object} {body : Proposition}
      {created : Nat} :
      bound.key ≠ old.key → bound.key = new.key → body.occurs old = true →
      Calls ⟨body, bound, bound.renamed created, created + 1⟩
        ⟨.quantified quantifier bound body, old, new, created⟩
  | secondPass {quantifier : Quantifier} {bound old new : Object} {body : Proposition}
      {created : Nat} {first : Proposition × Nat} :
      bound.key ≠ old.key → bound.key = new.key → body.occurs old = true →
      Returns ⟨body, bound, bound.renamed created, created + 1⟩ first →
      Calls ⟨first.1, old, new, first.2⟩ ⟨.quantified quantifier bound body, old, new, created⟩
  | inside {quantifier : Quantifier} {bound old new : Object} {body : Proposition}
      {created : Nat} :
      bound.key ≠ old.key → (bound.key = new.key → body.occurs old = false) →
      Calls ⟨body, old, new, created⟩ ⟨.quantified quantifier bound body, old, new, created⟩

variable {call inner outer : Substitution} {result : Proposition × Nat}

theorem Returns.skeleton_eq (returns : Returns call result) :
    result.1.skeleton = call.target.skeleton := by
  induction returns with
  | atom => simp [skeleton, Argument.skeleton_replace]
  | binary _ _ firstInduction secondInduction =>
      rw [skeleton, skeleton, firstInduction, secondInduction]
  | captured _ _ _ _ _ firstInduction secondInduction =>
      -- The second pass keeps the skeleton of the first result, which is that of the body.
      rw [skeleton, skeleton, secondInduction, firstInduction]
      rfl
  | inside _ _ _ innerInduction => rw [skeleton, skeleton, innerInduction]
  | falsum => rfl
  | bound => rfl
  | member => rfl
  | ordered => rfl

theorem Returns.size_eq (returns : Returns call result) : result.1.size = call.target.size := by
  rw [← size_skeleton, returns.skeleton_eq, size_skeleton]

theorem Calls.size_lt (calls : Calls inner outer) : inner.target.size < outer.target.size := by
  cases calls with
  | left =>
      simp only [size]
      omega
  | right _ =>
      simp only [size]
      omega
  | firstPass _ _ _ => exact Nat.lt_succ_self _
  | secondPass _ _ _ returns =>
      simp only [size, returns.size_eq]
      exact Nat.lt_succ_self _
  | inside _ _ => exact Nat.lt_succ_self _

theorem wellFounded_calls : WellFounded Calls :=
  Subrelation.wf Calls.size_lt (measure fun call : Substitution => call.target.size).wf

/-- Every call has a result. -/
theorem exists_returns (call : Substitution) : ∃ result, Returns call result := by
  induction call using wellFounded_calls.induction with
  | h call answered =>
      obtain ⟨target, old, new, created⟩ := call
      cases target with
      | atom name arguments => exact ⟨_, .atom⟩
      | falsum => exact ⟨_, .falsum⟩
      | binary left connective right =>
          obtain ⟨first, firstReturns⟩ := answered _ .left
          obtain ⟨second, secondReturns⟩ := answered _ (.right firstReturns)
          exact ⟨_, .binary firstReturns secondReturns⟩
      | quantified quantifier bound body =>
          by_cases isOld : bound.key = old.key
          · exact ⟨_, .bound isOld⟩
          · by_cases isCaptured : bound.key = new.key ∧ body.occurs old = true
            · obtain ⟨isNew, occurs⟩ := isCaptured
              obtain ⟨first, firstReturns⟩ := answered _ (.firstPass isOld isNew occurs)
              obtain ⟨second, secondReturns⟩ :=
                answered _ (.secondPass isOld isNew occurs firstReturns)
              exact ⟨_, .captured isOld isNew occurs firstReturns secondReturns⟩
            · have notCaptured : bound.key = new.key → body.occurs old = false := fun isNew =>
                Bool.eq_false_iff.mpr fun occurs => isCaptured ⟨isNew, occurs⟩
              obtain ⟨inner, innerReturns⟩ := answered _ (.inside isOld notCaptured)
              exact ⟨_, .inside isOld notCaptured innerReturns⟩
      | member element set => exact ⟨_, .member⟩
      | ordered left relation right => exact ⟨_, .ordered⟩

theorem Returns.eq_substitute (returns : Returns call result) :
    result = call.target.substitute call.old call.new call.created := by
  induction returns with
  | atom => rw [substitute_atom]
  | falsum => rw [substitute_falsum]
  | binary _ _ firstInduction secondInduction =>
      simp only [substitute_binary] at firstInduction secondInduction ⊢
      rw [← firstInduction, ← secondInduction]
  | bound isOld => rw [substitute_bound isOld]
  | captured notOld isNew occurs _ _ firstInduction secondInduction =>
      simp only [substitute_captured notOld isNew occurs] at firstInduction secondInduction ⊢
      rw [← firstInduction, ← secondInduction]
  | inside notOld notCaptured _ innerInduction =>
      rw [substitute_inside notOld notCaptured, ← innerInduction]
  | member => rw [substitute_member]
  | ordered => rw [substitute_ordered]

theorem returns_iff :
    Returns call result ↔ result = call.target.substitute call.old call.new call.created := by
  constructor
  · exact Returns.eq_substitute
  · rintro rfl
    obtain ⟨found, returns⟩ := exists_returns call
    rwa [← returns.eq_substitute]

end Substitution

namespace Proposition

theorem skeleton_substitute (p : Proposition) (old new : Object) (created : Nat) :
    (p.substitute old new created).1.skeleton = p.skeleton := by
  have returns : Substitution.Returns ⟨p, old, new, created⟩ (p.substitute old new created) :=
    Substitution.returns_iff.mpr rfl
  exact returns.skeleton_eq

/-- Renaming keeps the set of a bound variable. -/
theorem owners_substitute (p : Proposition) (old new : Object) (created : Nat) :
    (p.substitute old new created).1.owners = p.owners := by
  rw [← owners_skeleton, skeleton_substitute, owners_skeleton]

theorem sets_substitute (p : Proposition) (old new : Object) (created : Nat) :
    (p.substitute old new created).1.sets = p.sets := by
  rw [← sets_skeleton, skeleton_substitute, sets_skeleton]

/-- The calls that substitution makes can be followed only finitely often, so that its rules
have exactly one result. The result has the skeleton of the proposition. -/
theorem substitute_terminates_keeping_skeleton (p : Proposition) (old new : Object)
    (created : Nat) :
    WellFounded Substitution.Calls ∧
      (∀ result, Substitution.Returns ⟨p, old, new, created⟩ result ↔
        result = p.substitute old new created) ∧
      (p.substitute old new created).1.skeleton = p.skeleton ∧
      (p.substitute old new created).1.size = p.size :=
  ⟨Substitution.wellFounded_calls, fun _ => Substitution.returns_iff,
    p.skeleton_substitute old new created, p.size_substitute old new created⟩

end Proposition

end Deduction
