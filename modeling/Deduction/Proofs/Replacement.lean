import Deduction.Proofs.Equality
import Deduction.Proofs.Nameless

/-! # Replacement without renaming

Substitution renames a quantifier only where it would capture the replacement. Where none
would, no object is created and the replacement is put literally in its place. What two
substitutions do one after the other can then be told up to equality of propositions, and
not only up to the choice of bound variables. -/

namespace Deduction

/-! ## Objects and arguments -/

namespace Argument

theorem replace_congr {left right : Argument} (old new : Object)
    (equal : (left == right) = true) : (left.replace old new == right.replace old new) = true := by
  rcases cases_of_beq equal with ⟨x, y, rfl, rfl, sameKey⟩ | ⟨s, t, rfl, rfl, _⟩
  · apply Object.beq_iff_key.mpr
    rw [Object.key_replace, Object.key_replace, sameKey]
  · exact equal

theorem replace_beq_self {old new : Object} (same : new.key = old.key) (argument : Argument) :
    (argument.replace old new == argument) = true := by
  cases argument with
  | object x =>
      apply Object.beq_iff_key.mpr
      rw [Object.key_replace]
      split
      · rename_i isOld
        rw [same, isOld]
      · rfl
  | set s => exact beq_refl _

end Argument

namespace Object

/-- Nothing but the first replacement matters if what it puts in was not there before. -/
theorem replace_replace {x old middle : Object} (new : Object)
    (apart : middle.key = old.key ∨ x.key ≠ middle.key) :
    (x.replace old middle).replace middle new = x.replace old new := by
  simp only [replace, beq_iff_key]
  by_cases isOld : x.key = old.key
  · simp [isOld]
  · have notMiddle : x.key ≠ middle.key := by
      rcases apart with same | different
      · rwa [same]
      · exact different
    simp [isOld, notMiddle]

theorem Key.Precedes.ne_renamed {key : Key} {created : Nat} (precedes : key.Precedes created)
    (x : Object) : key ≠ (x.renamed created).key := by
  rw [key_renamed]
  exact precedes.ne_next

theorem replace_of_ne {x old : Object} (new : Object) (different : x.key ≠ old.key) :
    x.replace old new = x := by
  simp [replace, beq_iff_key, different]

end Object

namespace Proposition

variable {p q body : Proposition} {quantifier : Quantifier} {bound old new middle : Object}

/-! ## Capture and replacement -/

/-- Some quantifier binds `new` and has `old` free in its body, which is to be replaced
there since no quantifier above binds `old`. -/
def captures (old new : Object) : Proposition → Bool
  | atom _ _ => false
  | falsum => false
  | binary left _ right => left.captures old new || right.captures old new
  | quantified _ bound body =>
      !(bound == old) && ((bound == new && body.occurs old) || body.captures old new)
  | member _ _ => false
  | ordered _ _ _ => false

/-- Put `new` in every free place of `old`, whatever quantifiers stand above it. -/
def replace (old new : Object) : Proposition → Proposition
  | atom name arguments => atom name (arguments.map (Argument.replace old new))
  | falsum => falsum
  | binary left connective right =>
      binary (left.replace old new) connective (right.replace old new)
  | quantified quantifier bound body =>
      quantified quantifier bound (if bound == old then body else body.replace old new)
  | member element set => member (element.replace old new) set
  | ordered left relation right =>
      ordered (left.replace old new) relation (right.replace old new)

theorem captures_bound (same : bound.key = old.key) :
    (quantified quantifier bound body).captures old new = false := by
  simp [captures, Object.beq_iff_key.mpr same]

theorem captures_inside (notOld : bound.key ≠ old.key) :
    (quantified quantifier bound body).captures old new =
      ((bound == new && body.occurs old) || body.captures old new) := by
  simp [captures, Object.beq_eq_false_iff_key.mpr notOld]

theorem replace_bound (same : bound.key = old.key) :
    (quantified quantifier bound body).replace old new = quantified quantifier bound body := by
  simp [replace, Object.beq_iff_key.mpr same]

theorem replace_inside (notOld : bound.key ≠ old.key) :
    (quantified quantifier bound body).replace old new =
      quantified quantifier bound (body.replace old new) := by
  simp [replace, Object.beq_eq_false_iff_key.mpr notOld]

theorem occurs_bound {x : Object} (same : bound.key = x.key) :
    (quantified quantifier bound body).occurs x = false := by
  simp [occurs, Object.beq_iff_key.mpr same]

theorem occurs_inside {x : Object} (different : bound.key ≠ x.key) :
    (quantified quantifier bound body).occurs x = body.occurs x := by
  simp [occurs, Object.beq_eq_false_iff_key.mpr different]

theorem ne_of_not_occurs {name : String} {arguments : List Argument} {x y : Object}
    (not : (atom name arguments).occurs x = false) (member : .object y ∈ arguments) :
    (y == x) = false :=
  Bool.eq_false_iff.mpr (List.any_eq_false.mp not (.object y) member)

theorem not_captured_inside (notOld : bound.key ≠ old.key)
    (not : (quantified quantifier bound body).captures old new = false) :
    (bound.key = new.key → body.occurs old = false) ∧ body.captures old new = false := by
  rw [captures_inside notOld, Bool.or_eq_false_iff] at not
  refine ⟨fun isNew => ?_, not.2⟩
  simpa [Object.beq_iff_key.mpr isNew] using not.1

/-- Only what occurs can be captured. -/
theorem not_captures_of_not_occurs (not : p.occurs old = false) : p.captures old new = false := by
  induction p with
  | binary left connective right leftInduction rightInduction =>
      have parts := Bool.or_eq_false_iff.mp not
      exact Bool.or_eq_false_iff.mpr ⟨leftInduction parts.1, rightInduction parts.2⟩
  | quantified quantifier bound body induction =>
      by_cases isOld : bound.key = old.key
      · exact captures_bound isOld
      · rw [occurs_inside isOld] at not
        rw [captures_inside isOld, not, induction not]
        simp
  | _ => rfl

/-- An object is not captured where it stood itself. -/
theorem not_captures_self (old : Object) (p : Proposition) : p.captures old old = false := by
  induction p with
  | binary left connective right leftInduction rightInduction =>
      exact Bool.or_eq_false_iff.mpr ⟨leftInduction, rightInduction⟩
  | quantified quantifier bound body induction =>
      by_cases isOld : bound.key = old.key
      · exact captures_bound isOld
      · rw [captures_inside isOld, induction, Object.beq_eq_false_iff_key.mpr isOld]
        rfl
  | _ => rfl

theorem replace_of_not_occurs (not : p.occurs old = false) : p.replace old new = p := by
  induction p with
  | atom name arguments =>
      have unchanged : ∀ argument ∈ arguments, argument.replace old new = argument := by
        intro argument member
        cases argument with
        | object x =>
            have different := Object.beq_eq_false_iff_key.mp (ne_of_not_occurs not member)
            rw [Argument.replace, Object.replace_of_ne new different]
        | set s => rfl
      rw [replace, List.map_congr_left unchanged, List.map_id']
  | falsum => rfl
  | binary left connective right leftInduction rightInduction =>
      have parts := Bool.or_eq_false_iff.mp not
      rw [replace, leftInduction parts.1, rightInduction parts.2]
  | quantified quantifier bound body induction =>
      by_cases isOld : bound.key = old.key
      · exact replace_bound isOld
      · rw [occurs_inside isOld] at not
        rw [replace_inside isOld, induction not]
  | member element set =>
      rw [replace, Object.replace_of_ne new (Object.beq_eq_false_iff_key.mp not)]
  | ordered left relation right =>
      have parts := Bool.or_eq_false_iff.mp not
      rw [replace, Object.replace_of_ne new (Object.beq_eq_false_iff_key.mp parts.1),
        Object.replace_of_ne new (Object.beq_eq_false_iff_key.mp parts.2)]

/-! ## Substitution and capture

Substitution is replacement if nothing is captured. Otherwise a new variable shows in the
result, so that no proposition from before is equal to it. -/

theorem substitute_of_not_captures (not : p.captures old new = false) (created : Nat) :
    p.substitute old new created = (p.replace old new, created) := by
  induction p with
  | atom name arguments => simp [replace]
  | falsum => simp [replace]
  | binary left connective right leftInduction rightInduction =>
      have parts := Bool.or_eq_false_iff.mp not
      simp only [substitute_binary, leftInduction parts.1, rightInduction parts.2, replace]
  | quantified quantifier bound body induction =>
      by_cases isOld : bound.key = old.key
      · rw [substitute_bound isOld, replace_bound isOld]
      · obtain ⟨notCaptured, notInside⟩ := not_captured_inside isOld not
        rw [substitute_inside isOld notCaptured, replace_inside isOld, induction notInside]
  | member element set => simp [replace]
  | ordered left relation right => simp [replace]

theorem not_precedes_of_captures {created : Nat} (captures : p.captures old new = true) :
    ¬(p.substitute old new created).1.Precedes created := by
  intro precedes
  induction p generalizing created with
  | binary left connective right leftInduction rightInduction =>
      rw [substitute_binary] at precedes
      have parts := List.forall_mem_append.mp precedes
      rcases Bool.or_eq_true_iff.mp captures with inLeft | inRight
      · exact leftInduction inLeft parts.1
      · exact rightInduction inRight
          (Precedes.mono parts.2 (le_count_substitute left old new created))
  | quantified quantifier bound body induction =>
      by_cases isOld : bound.key = old.key
      · rw [captures_bound isOld] at captures
        cases captures
      · by_cases isCaptured : bound.key = new.key ∧ body.occurs old = true
        · rw [substitute_captured isOld isCaptured.1 isCaptured.2] at precedes
          have ofBound := (List.forall_mem_cons.mp precedes).1
          rw [Object.key_renamed] at ofBound
          exact Nat.not_succ_le_self created ofBound
        · have notCaptured : bound.key = new.key → body.occurs old = false := fun isNew =>
            Bool.eq_false_iff.mpr fun occurs => isCaptured ⟨isNew, occurs⟩
          have inBody : body.captures old new = true := by
            rw [captures_inside isOld] at captures
            rcases Bool.or_eq_true_iff.mp captures with here | inside
            · have both := Bool.and_eq_true_iff.mp here
              exact absurd ⟨Object.beq_iff_key.mp both.1, both.2⟩ isCaptured
            · exact inside
          rw [substitute_inside isOld notCaptured] at precedes
          exact induction inBody (List.forall_mem_cons.mp precedes).2
  | _ => cases captures

/-- Equal propositions have the same objects, place by place. -/
theorem keys_of_beq (equal : (p == q) = true) :
    p.objects.map Object.key = q.objects.map Object.key := by
  induction p generalizing q with
  | atom name arguments =>
      obtain ⟨arguments', rfl, argumentsEqual⟩ := eq_of_atom_beq equal
      exact Argument.keys_of_beq argumentsEqual
  | falsum => rw [eq_of_falsum_beq equal]
  | binary left connective right leftInduction rightInduction =>
      obtain ⟨left', right', rfl, leftEqual, rightEqual⟩ := eq_of_binary_beq equal
      simp only [objects, List.map_append]
      rw [leftInduction leftEqual, rightInduction rightEqual]
  | quantified quantifier bound body induction =>
      obtain ⟨bound', body', rfl, sameKey, bodyEqual⟩ := eq_of_quantified_beq equal
      simp only [objects, List.map_cons]
      rw [sameKey, induction bodyEqual]
  | member element set =>
      obtain ⟨element', set', rfl, sameKey, _⟩ := eq_of_member_beq equal
      simp [objects, sameKey]
  | ordered left relation right =>
      obtain ⟨left', right', rfl, leftKey, rightKey⟩ := eq_of_ordered_beq equal
      simp [objects, leftKey, rightKey]

theorem precedes_of_beq {created : Nat} (equal : (p == q) = true) (precedes : q.Precedes created) :
    p.Precedes created := by
  have keysPrecede : ∀ key ∈ q.objects.map Object.key, key.Precedes created :=
    List.forall_mem_map.mpr precedes
  rw [← keys_of_beq equal] at keysPrecede
  exact List.forall_mem_map.mp keysPrecede

/-- Nothing was captured if the result is equal to a proposition from before. -/
theorem not_captures_of_beq {created : Nat} (precedes : q.Precedes created)
    (equal : ((p.substitute old new created).1 == q) = true) : p.captures old new = false := by
  apply Bool.eq_false_iff.mpr
  intro captures
  exact not_precedes_of_captures captures (precedes_of_beq equal precedes)

/-- Nothing was captured if no object was created. -/
theorem not_captures_of_count {created : Nat} (precedes : p.Precedes created)
    (newPrecedes : new.key.Precedes created)
    (same : (p.substitute old new created).2 = created) : p.captures old new = false := by
  apply Bool.eq_false_iff.mpr
  intro captures
  have later : (p.substitute old new created).1.Precedes (p.substitute old new created).2 :=
    precedes.substitute newPrecedes
  rw [same] at later
  exact not_precedes_of_captures captures later

/-! ## Objects that do not occur -/

/-- The object occurs neither free nor bound. -/
def Avoids (p : Proposition) (x : Object) : Prop :=
  ∀ y ∈ p.objects, y.key ≠ x.key

theorem Precedes.avoids {created : Nat} (precedes : p.Precedes created) (x : Object) :
    p.Avoids (x.renamed created) := by
  intro y member
  exact (precedes y member).ne_renamed x

theorem Avoids.not_occurs {x : Object} (avoids : p.Avoids x) : p.occurs x = false := by
  apply Bool.eq_false_iff.mpr
  intro occurs
  obtain ⟨y, member, same⟩ := exists_object_of_occurs occurs
  exact avoids y member same

theorem Avoids.not_captures (avoids : p.Avoids new) : p.captures old new = false := by
  induction p with
  | binary left connective right leftInduction rightInduction =>
      have parts := List.forall_mem_append.mp avoids
      exact Bool.or_eq_false_iff.mpr ⟨leftInduction parts.1, rightInduction parts.2⟩
  | quantified quantifier bound body induction =>
      have parts := List.forall_mem_cons.mp avoids
      by_cases isOld : bound.key = old.key
      · exact captures_bound isOld
      · rw [captures_inside isOld, induction parts.2, Object.beq_eq_false_iff_key.mpr parts.1]
        rfl
  | _ => rfl

/-- Substitution for an object that does not occur creates nothing. -/
theorem Avoids.substitute (avoids : p.Avoids new) (old : Object) (created : Nat) :
    p.substitute old new created = (p.replace old new, created) :=
  substitute_of_not_captures avoids.not_captures created

/-! ## Occurrences after a replacement -/

theorem occurs_replace_other {x : Object} (notOld : old.key ≠ x.key) (notNew : new.key ≠ x.key)
    (p : Proposition) : (p.replace old new).occurs x = p.occurs x := by
  have ofObject : ∀ y : Object, (y.replace old new == x) = (y == x) := by
    intro y
    by_cases isOld : y.key = old.key
    · simp [BEq.beq, Object.key_replace, isOld, notOld, notNew]
    · simp [BEq.beq, Object.key_replace, isOld]
  induction p with
  | atom name arguments =>
      have ofArgument : ∀ argument : Argument,
          (argument.replace old new).isObject x = argument.isObject x := by
        intro argument
        cases argument with
        | object y => exact ofObject y
        | set s => rfl
      simp only [replace, occurs, List.any_map, Function.comp_def, ofArgument]
  | falsum => rfl
  | binary left connective right leftInduction rightInduction =>
      rw [replace, occurs, occurs, leftInduction, rightInduction]
  | quantified quantifier bound body induction =>
      by_cases isOld : bound.key = old.key
      · rw [replace_bound isOld]
      · rw [replace_inside isOld, occurs, occurs, induction]
  | member element set => exact ofObject element
  | ordered left relation right => rw [replace, occurs, occurs, ofObject left, ofObject right]

theorem not_occurs_replace_old {x : Object} (isOld : x.key = old.key) (notNew : x.key ≠ new.key)
    (p : Proposition) : (p.replace old new).occurs x = false := by
  have ofObject : ∀ y : Object, (y.replace old new == x) = false := by
    intro y
    rw [Object.beq_eq_false_iff_key, Object.key_replace]
    split
    · exact notNew.symm
    · rename_i notOld
      rwa [isOld]
  induction p with
  | atom name arguments =>
      apply List.any_eq_false.mpr
      intro replaced member
      obtain ⟨argument, _, rfl⟩ := List.mem_map.mp member
      cases argument with
      | object y => exact Bool.eq_false_iff.mp (ofObject y)
      | set s => exact Bool.false_ne_true
  | falsum => rfl
  | binary left connective right leftInduction rightInduction =>
      exact Bool.or_eq_false_iff.mpr ⟨leftInduction, rightInduction⟩
  | quantified quantifier bound body induction =>
      by_cases isX : bound.key = x.key
      · exact occurs_bound isX
      · rw [replace_inside (isOld ▸ isX), occurs_inside isX, induction]
  | member element set => exact ofObject element
  | ordered left relation right =>
      exact Bool.or_eq_false_iff.mpr ⟨ofObject left, ofObject right⟩

theorem not_occurs_replace {x : Object} (notNew : x.key ≠ new.key)
    (gone : x.key = old.key ∨ p.occurs x = false) : (p.replace old new).occurs x = false := by
  by_cases isOld : x.key = old.key
  · exact not_occurs_replace_old isOld notNew p
  · rw [occurs_replace_other (Ne.symm isOld) notNew.symm]
    exact gone.resolve_left isOld

/-- What did not occur before occurs where the replaced object did. -/
theorem Avoids.occurs_replace (avoids : p.Avoids new) (old : Object) :
    (p.replace old new).occurs new = p.occurs old := by
  have ofObject : ∀ y : Object, y.key ≠ new.key → (y.replace old new == new) = (y == old) := by
    intro y notNew
    by_cases isOld : y.key = old.key
    · simp [BEq.beq, Object.key_replace, isOld]
    · simp [BEq.beq, Object.key_replace, isOld, notNew]
  induction p with
  | atom name arguments =>
      rw [replace, occurs, occurs, List.any_map, Bool.eq_iff_iff, List.any_eq_true,
        List.any_eq_true]
      refine exists_congr fun argument => and_congr_right fun member => ?_
      cases argument with
      | object y =>
          have isObject : y ∈ (atom name arguments).objects :=
            List.mem_flatMap.mpr ⟨_, member, List.mem_singleton_self y⟩
          exact Bool.eq_iff_iff.mp (ofObject y (avoids y isObject))
      | set s => exact Iff.rfl
  | falsum => rfl
  | binary left connective right leftInduction rightInduction =>
      have parts := List.forall_mem_append.mp avoids
      simp only [replace, occurs]
      rw [leftInduction parts.1, rightInduction parts.2]
  | quantified quantifier bound body induction =>
      have parts := List.forall_mem_cons.mp avoids
      have inBody : body.Avoids new := parts.2
      by_cases isOld : bound.key = old.key
      · rw [replace_bound isOld, occurs_inside parts.1, occurs_bound isOld, inBody.not_occurs]
      · rw [replace_inside isOld, occurs_inside parts.1, occurs_inside isOld, induction inBody]
  | member element set => exact ofObject element (avoids element List.mem_cons_self)
  | ordered left relation right =>
      have parts := List.forall_mem_cons.mp avoids
      simp only [replace, occurs]
      rw [ofObject left parts.1, ofObject right (parts.2 right List.mem_cons_self)]

/-- The replacement of an object that did not occur before meets the same quantifiers as
the object in whose place it stands. -/
theorem Avoids.captures_replace (avoids : p.Avoids middle) (old new : Object) :
    (p.replace old middle).captures middle new = p.captures old new := by
  induction p with
  | binary left connective right leftInduction rightInduction =>
      have parts := List.forall_mem_append.mp avoids
      simp only [replace, captures]
      rw [leftInduction parts.1, rightInduction parts.2]
  | quantified quantifier bound body induction =>
      have parts := List.forall_mem_cons.mp avoids
      have inBody : body.Avoids middle := parts.2
      by_cases isOld : bound.key = old.key
      · have notInside : (quantified quantifier bound body).occurs middle = false :=
          avoids.not_occurs
        rw [replace_bound isOld, captures_bound isOld, not_captures_of_not_occurs notInside]
      · rw [replace_inside isOld, captures_inside parts.1, captures_inside isOld,
          inBody.occurs_replace, induction inBody]
  | _ => rfl

/-! ## Successive replacements -/

/-- Replacing an object by way of another one, which nothing captures, is replacing it. -/
theorem replace_replace (apart : middle.key = old.key ∨ p.occurs middle = false)
    (not : p.captures old middle = false) (new : Object) :
    (p.replace old middle).replace middle new = p.replace old new := by
  have ofObject : ∀ y : Object, (middle.key = old.key ∨ (y == middle) = false) →
      (y.replace old middle).replace middle new = y.replace old new := fun y apartHere =>
    Object.replace_replace new (apartHere.imp_right Object.beq_eq_false_iff_key.mp)
  induction p with
  | atom name arguments =>
      simp only [replace, List.map_map]
      congr 1
      apply List.map_congr_left
      intro argument member
      cases argument with
      | object y =>
          have apartHere := apart.imp_right fun absent => ne_of_not_occurs absent member
          exact congrArg Argument.object (ofObject y apartHere)
      | set s => rfl
  | falsum => rfl
  | binary left connective right leftInduction rightInduction =>
      have notParts := Bool.or_eq_false_iff.mp not
      have leftApart := apart.imp_right fun absent => (Bool.or_eq_false_iff.mp absent).1
      have rightApart := apart.imp_right fun absent => (Bool.or_eq_false_iff.mp absent).2
      simp only [replace]
      rw [leftInduction leftApart notParts.1, rightInduction rightApart notParts.2]
  | quantified quantifier bound body induction =>
      by_cases isOld : bound.key = old.key
      · rw [replace_bound isOld, replace_bound isOld]
        apply replace_of_not_occurs
        rcases apart with same | absent
        · exact occurs_bound (isOld.trans same.symm)
        · exact absent
      · obtain ⟨notCaptured, notInside⟩ := not_captured_inside isOld not
        rw [replace_inside isOld, replace_inside isOld]
        by_cases isMiddle : bound.key = middle.key
        · -- Below a quantifier that binds the middle object there is nothing to replace.
          rw [replace_bound isMiddle, replace_of_not_occurs (notCaptured isMiddle),
            replace_of_not_occurs (notCaptured isMiddle)]
        · rw [occurs_inside isMiddle] at apart
          rw [replace_inside isMiddle, induction apart notInside]
  | member element set => rw [replace, replace, replace, ofObject element apart]
  | ordered left relation right =>
      rw [replace, replace, replace,
        ofObject left (apart.imp_right fun absent => (Bool.or_eq_false_iff.mp absent).1),
        ofObject right (apart.imp_right fun absent => (Bool.or_eq_false_iff.mp absent).2)]

/-! ## Replacements and equality -/

theorem replace_congr (old new : Object) (equal : (p == q) = true) :
    (p.replace old new == q.replace old new) = true := by
  have ofKey : ∀ {x y : Object}, x.key = y.key →
      (x.replace old new).key = (y.replace old new).key := by
    intro x y same
    rw [Object.key_replace, Object.key_replace, same]
  induction p generalizing q with
  | atom name arguments =>
      obtain ⟨arguments', rfl, argumentsEqual⟩ := eq_of_atom_beq equal
      exact beq_atom (Argument.map_beq_map (Argument.replace_congr old new) argumentsEqual)
  | falsum =>
      rw [eq_of_falsum_beq equal]
      rfl
  | binary left connective right leftInduction rightInduction =>
      obtain ⟨left', right', rfl, leftEqual, rightEqual⟩ := eq_of_binary_beq equal
      exact beq_binary (leftInduction leftEqual) (rightInduction rightEqual)
  | quantified quantifier bound body induction =>
      obtain ⟨bound', body', rfl, same, bodyEqual⟩ := eq_of_quantified_beq equal
      by_cases isOld : bound.key = old.key
      · rw [replace_bound isOld, replace_bound (same ▸ isOld)]
        exact equal
      · rw [replace_inside isOld, replace_inside (same ▸ isOld)]
        exact beq_quantified same (induction bodyEqual)
  | member element set =>
      obtain ⟨element', set', rfl, same, sameName⟩ := eq_of_member_beq equal
      exact beq_member (ofKey same) sameName
  | ordered left relation right =>
      obtain ⟨left', right', rfl, leftSame, rightSame⟩ := eq_of_ordered_beq equal
      exact beq_ordered (ofKey leftSame) (ofKey rightSame)

/-- An equal object in the place of another one makes no difference. -/
theorem replace_beq_self (same : new.key = old.key) (p : Proposition) :
    (p.replace old new == p) = true := by
  have ofKey : ∀ x : Object, (x.replace old new).key = x.key := by
    intro x
    rw [Object.key_replace, same]
    split
    · exact Eq.symm ‹_›
    · rfl
  induction p with
  | atom name arguments =>
      exact beq_atom (Argument.map_beq_self (Argument.replace_beq_self same) arguments)
  | falsum => rfl
  | binary left connective right leftInduction rightInduction =>
      exact beq_binary leftInduction rightInduction
  | quantified quantifier bound body induction =>
      by_cases isOld : bound.key = old.key
      · rw [replace_bound isOld]
        exact beq_refl _
      · rw [replace_inside isOld]
        exact beq_quantified rfl induction
  | member element set => exact beq_member (ofKey element) rfl
  | ordered left relation right => exact beq_ordered (ofKey left) (ofKey right)

/-! ## Successive substitutions -/

/-- Nothing is captured on the way over an object that does not occur if nothing is captured
on the direct way. -/
theorem Avoids.substitute_replace (avoids : p.Avoids middle) (not : p.captures old new = false)
    (created : Nat) :
    (p.replace old middle).substitute middle new created = (p.replace old new, created) := by
  rw [substitute_of_not_captures (by rw [avoids.captures_replace, not]),
    replace_replace (.inr avoids.not_occurs) avoids.not_captures]

/-- Substituting by way of an object that does not occur is substituting, up to the choice
of bound variables. -/
theorem namelessIn_substitute_replace {created later : Nat} (precedes : p.Precedes created)
    (oldPrecedes : old.key.Precedes created) (newPrecedes : new.key.Precedes created)
    (le : created ≤ later) (avoids : p.Avoids middle) (middlePrecedes : middle.key.Precedes later)
    (scope : Nameless.Scope) :
    ((p.replace old middle).substitute middle new later).1.namelessIn scope =
      (p.substitute old new created).1.namelessIn scope := by
  have isReplaced := avoids.substitute old later
  have replacedPrecedes : (p.replace old middle).Precedes later := by
    have result : (p.substitute old middle later).1.Precedes (p.substitute old middle later).2 :=
      (precedes.mono le).substitute middlePrecedes
    rwa [isReplaced] at result
  have replacedIn : ∀ inner : Nameless.Scope, (p.replace old middle).namelessIn inner =
      p.namelessIn (Function.update inner old.key (inner middle.key)) := by
    intro inner
    rw [← namelessIn_substitute (precedes.mono le) (oldPrecedes.mono le) middlePrecedes inner,
      isReplaced]
  rw [namelessIn_substitute replacedPrecedes middlePrecedes (newPrecedes.mono le), replacedIn,
    Function.update_self, namelessIn_substitute precedes oldPrecedes newPrecedes]
  apply namelessIn_congr
  intro x occurs
  by_cases isOld : x.key = old.key
  · rw [isOld, Function.update_self, Function.update_self]
  · have notMiddle : x.key ≠ middle.key := by
      obtain ⟨y, member, same⟩ := exists_object_of_occurs occurs
      exact same ▸ avoids y member
    rw [Function.update_of_ne isOld, Function.update_of_ne isOld, Function.update_of_ne notMiddle]

end Proposition

end Deduction
