import Deduction.Proofs.Replacement

/-! # Renamings

Which quantifiers substitution renames, in which order and how often. It renames each
quantifier that would capture the replacement exactly once, outer ones before inner ones and
left ones before right ones. The pass that puts in the new variable renames nothing, since
that variable is new, and hides nothing from the pass that follows. -/

namespace Deduction

/-! ## Quantifiers -/

/-- A quantifier of a proposition: its variable, its body, and the variables of the
quantifiers in whose scope it stands. -/
structure Binder where
  bound : Object
  body : Proposition
  above : List Object

namespace Binder

/-- The quantifier binds `new`, neither it nor one above it binds `old`, and `old` occurs
free in its body. -/
def captures (old new : Object) (binder : Binder) : Bool :=
  binder.bound == new && !(binder.bound == old) && !binder.above.any (· == old) &&
    binder.body.occurs old

/-- The quantifier as it is seen from above some more quantifiers. -/
def under (above : List Object) (binder : Binder) : Binder :=
  { binder with above := binder.above ++ above }

/-- The variable of a quantifier, and whether it has to give way. -/
def mark (old new : Object) (binder : Binder) : Object × Bool :=
  (binder.bound, binder.captures old new)

theorem mark_under (old new : Object) (above : List Object) (binder : Binder) :
    (binder.under above).mark old new =
      (binder.bound, binder.captures old new && !above.any (· == old)) := by
  simp only [mark, captures, under, List.any_append, Bool.not_or, Prod.mk.injEq, true_and]
  ac_rfl

end Binder

/-- The variables in order, where each one that is marked becomes a new variable. New
variables take the numbers that follow. -/
def renumbered : Nat → List (Object × Bool) → List Object
  | _, [] => []
  | created, (x, true) :: rest => x.renamed created :: renumbered (created + 1) rest
  | created, (x, false) :: rest => x :: renumbered created rest

theorem renumbered_append (created : Nat) (first second : List (Object × Bool)) :
    renumbered created (first ++ second) =
      renumbered created first ++ renumbered (created + first.countP Prod.snd) second := by
  induction first generalizing created with
  | nil => rfl
  | cons head tail induction =>
      obtain ⟨x, marked⟩ := head
      cases marked with
      | true =>
          simp only [List.cons_append, renumbered, induction, List.countP_cons_of_pos]
          rw [Nat.add_right_comm, Nat.add_assoc]
      | false => simp [renumbered, induction]

theorem renumbered_of_unmarked {marks : List (Object × Bool)}
    (unmarked : ∀ mark ∈ marks, mark.2 = false) (created : Nat) :
    renumbered created marks = marks.map Prod.fst := by
  induction marks with
  | nil => rfl
  | cons head tail induction =>
      obtain ⟨x, marked⟩ := head
      have parts := List.forall_mem_cons.mp unmarked
      cases parts.1
      rw [renumbered, induction parts.2]
      rfl

namespace Proposition

variable {p body : Proposition} {quantifier : Quantifier} {bound old new : Object}

/-- The quantifiers below some others, outer ones before inner ones and left ones before
right ones. -/
def bindersBelow (above : List Object) : Proposition → List Binder
  | atom _ _ => []
  | falsum => []
  | binary left _ right => left.bindersBelow above ++ right.bindersBelow above
  | quantified _ bound body => ⟨bound, body, above⟩ :: body.bindersBelow (bound :: above)
  | member _ _ => []
  | ordered _ _ _ => []

def binders (p : Proposition) : List Binder :=
  p.bindersBelow []

def marks (old new : Object) (p : Proposition) : List (Object × Bool) :=
  p.binders.map (Binder.mark old new)

def capturing (old new : Object) (p : Proposition) : List Binder :=
  p.binders.filter (Binder.captures old new)

theorem bindersBelow_eq (p : Proposition) (above : List Object) :
    p.bindersBelow above = p.binders.map (Binder.under above) := by
  induction p generalizing above with
  | binary left connective right leftInduction rightInduction =>
      rw [binders, bindersBelow, bindersBelow, leftInduction, rightInduction, List.map_append]
      rfl
  | quantified quantifier bound body induction =>
      rw [binders, bindersBelow, bindersBelow, induction (bound :: above), induction [bound],
        List.map_cons, List.map_map]
      congr 1
      apply List.map_congr_left
      intro binder _
      simp [Binder.under]
  | _ => rfl

theorem map_bound_marks (old new : Object) (p : Proposition) :
    (p.marks old new).map Prod.fst = p.binders.map Binder.bound := by
  rw [marks, List.map_map]
  rfl

theorem marks_binary (left right : Proposition) (connective : Connective) :
    (binary left connective right).marks old new = left.marks old new ++ right.marks old new :=
  List.map_append

theorem marks_quantified (quantifier : Quantifier) (bound : Object) (body : Proposition) :
    (quantified quantifier bound body).marks old new =
      (bound, bound == new && !(bound == old) && body.occurs old) ::
        body.binders.map fun binder =>
          (binder.bound, binder.captures old new && !(bound == old)) := by
  rw [marks, binders, bindersBelow, bindersBelow_eq, List.map_cons, List.map_map]
  congr 1
  · simp [Binder.mark, Binder.captures]
  · apply List.map_congr_left
    intro binder _
    rw [Function.comp_apply, Binder.mark_under, List.any_cons, List.any_nil, Bool.or_false]

theorem marks_inside (notOld : bound.key ≠ old.key) :
    (quantified quantifier bound body).marks old new =
      (bound, bound == new && body.occurs old) :: body.marks old new := by
  have isOther : (bound == old) = false := Object.beq_eq_false_iff_key.mpr notOld
  simp only [marks_quantified, isOther, Bool.not_false, Bool.and_true]
  rfl

/-- Nothing is marked from a quantifier over `old` on downwards. -/
theorem marks_bound (isOld : bound.key = old.key) (quantifier : Quantifier) (body : Proposition)
    (new : Object) : ∀ mark ∈ (quantified quantifier bound body).marks old new, mark.2 = false := by
  have isSame : (bound == old) = true := Object.beq_iff_key.mpr isOld
  simp [marks_quantified, isSame]

theorem map_bound_binders_quantified (quantifier : Quantifier) (bound : Object)
    (body : Proposition) :
    (quantified quantifier bound body).binders.map Binder.bound =
      bound :: body.binders.map Binder.bound := by
  rw [binders, bindersBelow, bindersBelow_eq, List.map_cons, List.map_map]
  rfl

theorem countP_marks (old new : Object) (p : Proposition) :
    (p.marks old new).countP Prod.snd = (p.capturing old new).length := by
  rw [marks, List.countP_map, capturing, ← List.countP_eq_length_filter]
  rfl

theorem captures_eq_any (old new : Object) (p : Proposition) :
    p.captures old new = (p.marks old new).any Prod.snd := by
  induction p with
  | binary left connective right leftInduction rightInduction =>
      rw [captures, marks_binary, List.any_append, leftInduction, rightInduction]
  | quantified quantifier bound body induction =>
      by_cases isOld : bound.key = old.key
      · have unmarked := marks_bound isOld quantifier body new
        rw [captures_bound isOld, eq_comm, List.any_eq_false]
        intro mark member
        rw [unmarked mark member]
        exact Bool.false_ne_true
      · rw [captures_inside isOld, marks_inside isOld, List.any_cons, induction]
  | _ => rfl

theorem capturing_eq_nil_iff : p.capturing old new = [] ↔ p.captures old new = false := by
  rw [captures_eq_any, marks, List.any_map, List.any_eq_false, capturing,
    List.filter_eq_nil_iff]
  rfl

theorem capturing_eq_nil_of_beq (same : (old == new) = true) (p : Proposition) :
    p.capturing old new = [] := by
  apply List.filter_eq_nil_iff.mpr
  intro binder _ captures
  have alike : (binder.bound == new) = (binder.bound == old) := by
    simp [BEq.beq, Object.beq_iff_key.mp same]
  simp [Binder.captures, alike] at captures

/-! ## The renamings of a substitution -/

/-- Replacing other objects keeps the variables of all quantifiers and changes nothing about
which of them capture. -/
theorem marks_replace {x y : Object} (notOld : x.key ≠ old.key) (isNotOld : y.key ≠ old.key)
    (new : Object) (p : Proposition) : (p.replace x y).marks old new = p.marks old new := by
  have below : ∀ above : List Object,
      ((p.replace x y).bindersBelow above).map (Binder.mark old new) =
        (p.bindersBelow above).map (Binder.mark old new) := by
    induction p with
    | binary left connective right leftInduction rightInduction =>
        intro above
        rw [replace, bindersBelow, bindersBelow, List.map_append, List.map_append, leftInduction,
          rightInduction]
    | quantified quantifier bound body induction =>
        intro above
        by_cases isBound : bound.key = x.key
        · rw [replace_bound isBound]
        · rw [replace_inside isBound, bindersBelow, bindersBelow, List.map_cons, List.map_cons,
            induction]
          simp only [Binder.mark, Binder.captures, occurs_replace_other notOld isNotOld]
    | _ => exact fun _ => rfl
  exact below []

/-- A new variable does not occur in the body, so the pass that puts it in renames nothing. -/
theorem substitute_captured_by_replace {created : Nat} (precedes : body.Precedes created)
    (notOld : bound.key ≠ old.key) (isNew : bound.key = new.key) (occurs : body.occurs old = true)
    (quantifier : Quantifier) :
    (quantified quantifier bound body).substitute old new created =
      let second := (body.replace bound (bound.renamed created)).substitute old new (created + 1)
      (quantified quantifier (bound.renamed created) second.1, second.2) := by
  rw [substitute_captured notOld isNew occurs, (precedes.avoids bound).substitute]

theorem renamings_of_substitute (old new : Object) {created : Nat}
    (precedes : p.Precedes created) :
    (p.substitute old new created).2 = created + (p.marks old new).countP Prod.snd ∧
      (p.substitute old new created).1.binders.map Binder.bound =
        renumbered created (p.marks old new) := by
  induction p, old, new, created using substitute_induction with
  | atom name arguments old new created =>
      rw [substitute_atom]
      exact ⟨rfl, rfl⟩
  | falsum old new created =>
      rw [substitute_falsum]
      exact ⟨rfl, rfl⟩
  | binary left connective right old new created leftInduction rightInduction =>
      have parts := List.forall_mem_append.mp precedes
      have le := le_count_substitute left old new created
      obtain ⟨leftCount, leftBound⟩ := leftInduction parts.1
      obtain ⟨rightCount, rightBound⟩ := rightInduction (Precedes.mono parts.2 le)
      rw [substitute_binary, marks_binary, List.countP_append, renumbered_append, ← leftCount,
        ← leftBound, ← rightBound, ← Nat.add_assoc, ← leftCount]
      exact ⟨rightCount, List.map_append⟩
  | bound quantifier bound body old new created isOld =>
      have unmarked := marks_bound isOld quantifier body new
      have none : ((quantified quantifier bound body).marks old new).countP Prod.snd = 0 :=
        List.countP_eq_zero.mpr fun mark member => Bool.eq_false_iff.mp (unmarked mark member)
      rw [substitute_bound isOld, none, renumbered_of_unmarked unmarked, map_bound_marks]
      exact ⟨rfl, rfl⟩
  | captured quantifier bound body old new created notOld isNew occurs first firstInduction
      secondInduction =>
      have bodyPrecedes : body.Precedes created := (List.forall_mem_cons.mp precedes).2
      have notRenamed := (bodyPrecedes.of_occurs occurs).ne_renamed bound
      have firstPrecedes : first.1.Precedes first.2 :=
        (bodyPrecedes.mono (Nat.le_succ created)).substitute
          (Object.precedes_of_id_le (Nat.le_refl (created + 1)))
      obtain ⟨secondCount, secondBound⟩ := secondInduction firstPrecedes
      have isFirst : first = (body.replace bound (bound.renamed created), created + 1) :=
        (bodyPrecedes.avoids bound).substitute bound (created + 1)
      rw [isFirst, marks_replace notOld notRenamed.symm] at secondCount secondBound
      have isMarked : (bound == new && body.occurs old) = true := by
        rw [Object.beq_iff_key.mpr isNew, occurs, Bool.and_true]
      rw [substitute_captured_by_replace bodyPrecedes notOld isNew occurs, marks_inside notOld,
        isMarked, renumbered, map_bound_binders_quantified, List.countP_cons_of_pos rfl]
      refine ⟨?_, congrArg (List.cons _) secondBound⟩
      rw [secondCount, Nat.add_right_comm, Nat.add_assoc]
  | inside quantifier bound body old new created notOld notCaptured induction =>
      obtain ⟨count, areBound⟩ := induction (List.forall_mem_cons.mp precedes).2
      have notMarked : (bound == new && body.occurs old) = false := by
        by_cases isNew : bound.key = new.key
        · rw [notCaptured isNew, Bool.and_false]
        · rw [Object.beq_eq_false_iff_key.mpr isNew, Bool.false_and]
      rw [substitute_inside notOld notCaptured, marks_inside notOld, notMarked, renumbered,
        map_bound_binders_quantified, List.countP_cons_of_neg Bool.false_ne_true]
      exact ⟨count, congrArg (List.cons bound) areBound⟩
  | member element set old new created =>
      rw [substitute_member]
      exact ⟨rfl, rfl⟩
  | ordered left relation right old new created =>
      rw [substitute_ordered]
      exact ⟨rfl, rfl⟩

/-- Substitution creates one variable for each quantifier that would capture the replacement,
in the order in which they stand, and keeps all other bound variables. Where there is no such
quantifier it just replaces, and where there is nothing to replace it changes nothing. -/
theorem substitute_renames_capturing (p : Proposition) (old new : Object) (created : Nat)
    (precedes : p.Precedes created) :
    (p.substitute old new created).2 = created + (p.capturing old new).length ∧
      (p.substitute old new created).1.binders.map Binder.bound =
        renumbered created (p.marks old new) ∧
      ((old == new) = true → p.capturing old new = []) ∧
      (p.capturing old new = [] → p.substitute old new created = (p.replace old new, created)) ∧
      (p.occurs old = false ∨ (old == new) = true →
        ((p.substitute old new created).1 == p) = true) := by
  obtain ⟨count, areBound⟩ := renamings_of_substitute old new precedes
  rw [countP_marks] at count
  have byReplacing (none : p.capturing old new = []) :
      p.substitute old new created = (p.replace old new, created) :=
    substitute_of_not_captures (capturing_eq_nil_iff.mp none) created
  refine ⟨count, areBound, fun same => capturing_eq_nil_of_beq same p, byReplacing, ?_⟩
  rintro (absent | same)
  · have none : p.capturing old new = [] :=
      capturing_eq_nil_iff.mpr (not_captures_of_not_occurs absent)
    rw [byReplacing none, replace_of_not_occurs absent]
    exact beq_refl p
  · rw [byReplacing (capturing_eq_nil_of_beq same p)]
    exact replace_beq_self (Object.beq_iff_key.mp same).symm p

/-! In the sample `v` replaces `x`. Two of the four quantifiers would capture it, one of them
in the scope of the other; in the scope of the quantifier over `x` there is nothing to
replace. -/

namespace Sample

def replaced : Object := ⟨1, "x", none, []⟩

def replacement : Object := ⟨2, "v", some 1, []⟩

def exceeded : Proposition :=
  .quantified .existential replacement (.ordered replaced .less replacement)

def crowded : Proposition :=
  (Proposition.quantified .universal replacement
      ((Proposition.member replaced (.plain 1 "S")).implies exceeded)).or
    (.quantified .universal replaced exceeded)

end Sample

open Sample in
theorem substitute_renames_capturing_crowded :
    crowded.Precedes 2 ∧ (crowded.substitute replaced replacement 2).2 = 4 ∧
      (crowded.substitute replaced replacement 2).1.binders.map Binder.bound =
        [⟨3, "", some 1, []⟩, ⟨4, "", some 1, []⟩, replaced, replacement] ∧
      crowded.substitute replaced replaced 2 = (crowded.replace replaced replaced, 2) := by
  have precedes : crowded.Precedes 2 := by
    simp [Precedes, crowded, exceeded, objects, Proposition.implies, Proposition.or, Object.key,
      Object.Key.Precedes, replaced, replacement]
  obtain ⟨count, areBound, _⟩ :=
    substitute_renames_capturing crowded replaced replacement 2 precedes
  obtain ⟨_, _, none, replaces, _⟩ :=
    substitute_renames_capturing crowded replaced replaced 2 precedes
  exact ⟨precedes, count, areBound, replaces (none (by decide))⟩

end Proposition

end Deduction
