import Deduction.Proposition.Substitution

/-! # Substitution and the objects it meets

Facts about substitution that every later theory of propositions uses: an
induction that follows its branches, where it changes nothing, and that all
unnamed objects of its result are among those counted so far. -/

namespace Deduction

/-! ## Numbering

Objects are numbered in the order of their creation. -/

/-- The objects have the numbers that follow `before`, up to `after`. -/
inductive Object.Numbered : Nat → List Object → Nat → Prop
  | nil (number : Nat) : Numbered number [] number
  | cons {x : Object} {rest : List Object} {before after : Nat} :
      x.id = before + 1 → Numbered (before + 1) rest after → Numbered before (x :: rest) after

namespace Object.Numbered

variable {objects others : List Object} {before middle after : Nat}

theorem append (first : Numbered before objects middle) (second : Numbered middle others after) :
    Numbered before (objects ++ others) after := by
  induction first with
  | nil number => exact second
  | cons isNext _ induction => exact .cons isNext (induction second)

theorem concat {x : Object} (numbered : Numbered before objects after)
    (isNext : x.id = after + 1) : Numbered before (objects ++ [x]) (after + 1) :=
  numbered.append (.cons isNext (.nil _))

theorem length_eq (numbered : Numbered before objects after) : before + objects.length = after := by
  induction numbered with
  | nil number => rfl
  | cons _ _ induction =>
      rw [List.length_cons]
      omega

theorem le (numbered : Numbered before objects after) : before ≤ after :=
  numbered.length_eq ▸ Nat.le_add_right _ _

variable {x y : Object}

theorem id_le (numbered : Numbered before objects after) (member : x ∈ objects) :
    x.id ≤ after := by
  induction numbered with
  | nil number => cases member
  | cons isNext rest induction =>
      rcases List.mem_cons.mp member with rfl | isLater
      · rw [isNext]
        exact rest.le
      · exact induction isLater

theorem lt_id (numbered : Numbered before objects after) (member : x ∈ objects) :
    before < x.id := by
  induction numbered with
  | nil number => cases member
  | cons isNext _ induction =>
      rcases List.mem_cons.mp member with rfl | isLater
      · rw [isNext]
        exact Nat.lt_succ_self _
      · exact Nat.lt_of_succ_lt (induction isLater)

/-- An object is determined by its number. -/
theorem eq_of_id (numbered : Numbered before objects after) (isFirst : x ∈ objects)
    (isSecond : y ∈ objects) (same : x.id = y.id) : x = y := by
  induction numbered with
  | nil number => cases isFirst
  | cons isNext rest induction =>
      rcases List.mem_cons.mp isFirst with rfl | firstLater
      · rcases List.mem_cons.mp isSecond with rfl | secondLater
        · rfl
        · have later := rest.lt_id secondLater
          omega
      · rcases List.mem_cons.mp isSecond with rfl | secondLater
        · have later := rest.lt_id firstLater
          omega
        · exact induction firstLater secondLater

end Object.Numbered

/-! ## Occurrences -/

namespace Argument

def objects : Argument → List Object
  | object x => [x]
  | set _ => []

def sets : Argument → List Collection
  | object _ => []
  | set s => [s]

end Argument

namespace Proposition

/-- The objects of a proposition, free and bound ones. -/
def objects : Proposition → List Object
  | atom _ arguments => arguments.flatMap Argument.objects
  | falsum => []
  | binary left _ right => left.objects ++ right.objects
  | quantified _ bound body => bound :: body.objects
  | member element _ => [element]
  | ordered left _ right => [left, right]

def sets : Proposition → List Collection
  | atom _ arguments => arguments.flatMap Argument.sets
  | falsum => []
  | binary left _ right => left.sets ++ right.sets
  | quantified _ _ body => body.sets
  | member _ set => [set]
  | ordered _ _ _ => []

/-- The sets that the bound variables belong to, from left to right. -/
def owners : Proposition → List (Option SetId)
  | atom _ _ => []
  | falsum => []
  | binary left _ right => left.owners ++ right.owners
  | quantified _ bound body => bound.owner :: body.owners
  | member _ _ => []
  | ordered _ _ _ => []

end Proposition

theorem Object.replace_cases (x old new : Object) :
    x.replace old new = x ∨ x.replace old new = new := by
  unfold replace
  split
  · exact .inr rfl
  · exact .inl rfl

theorem Object.beq_eq_false_iff_key {left right : Object} :
    (left == right) = false ↔ left.key ≠ right.key := by
  rw [Bool.eq_false_iff, ne_eq, Object.beq_iff_key]

/-- Only the key of an object decides where it occurs. -/
theorem Proposition.occurs_congr {p : Proposition} {x y : Object} (same : x.key = y.key) :
    p.occurs x = p.occurs y := by
  have alike : ∀ z : Object, (z == x) = (z == y) := fun z => by
    simp [BEq.beq, same]
  induction p with
  | atom name arguments =>
      have arguments_alike : ∀ argument : Argument, argument.isObject x = argument.isObject y :=
        fun argument => by cases argument <;> simp [Argument.isObject, alike]
      simp [occurs, arguments_alike]
  | falsum => rfl
  | binary left connective right leftInduction rightInduction =>
      simp [occurs, leftInduction, rightInduction]
  | quantified quantifier bound body induction => simp [occurs, induction, alike]
  | member element set => simp [occurs, alike]
  | ordered left relation right => simp [occurs, alike]

/-! ## Branches

The three things that substitution does at a quantifier, with the conditions
on keys under which it does them. -/

namespace Proposition

theorem substitute_bound {bound old : Object} (same : bound.key = old.key)
    (quantifier : Quantifier) (body : Proposition) (new : Object) (created : Nat) :
    (quantified quantifier bound body).substitute old new created =
      (quantified quantifier bound body, created) := by
  rw [substitute_quantified, if_pos (Object.beq_iff_key.mpr same)]

theorem substitute_captured {bound old new : Object} {body : Proposition}
    (notOld : bound.key ≠ old.key) (isNew : bound.key = new.key)
    (occurs : body.occurs old = true) (quantifier : Quantifier) (created : Nat) :
    (quantified quantifier bound body).substitute old new created =
      let first := body.substitute bound (bound.renamed created) (created + 1)
      let second := first.1.substitute old new first.2
      (quantified quantifier (bound.renamed created) second.1, second.2) := by
  rw [substitute_quantified, if_neg (mt Object.beq_iff_key.mp notOld), if_pos]
  rw [Object.beq_iff_key.mpr isNew, occurs, Bool.and_true]

theorem substitute_inside {bound old new : Object} {body : Proposition}
    (notOld : bound.key ≠ old.key)
    (notCaptured : bound.key = new.key → body.occurs old = false)
    (quantifier : Quantifier) (created : Nat) :
    (quantified quantifier bound body).substitute old new created =
      let inner := body.substitute old new created
      (quantified quantifier bound inner.1, inner.2) := by
  rw [substitute_quantified, if_neg (mt Object.beq_iff_key.mp notOld), if_neg]
  intro captured
  have parts := Bool.and_eq_true_iff.mp captured
  rw [notCaptured (Object.beq_iff_key.mp parts.1)] at parts
  exact Bool.false_ne_true parts.2

/-- Induction along the recursion of substitution. -/
@[elab_as_elim]
theorem substitute_induction {motive : Proposition → Object → Object → Nat → Prop}
    (atom : ∀ name arguments old new created, motive (.atom name arguments) old new created)
    (falsum : ∀ old new created, motive .falsum old new created)
    (binary : ∀ left connective right old new created,
      motive left old new created →
      motive right old new (left.substitute old new created).2 →
      motive (.binary left connective right) old new created)
    (bound : ∀ quantifier bound body old new created,
      bound.key = old.key → motive (.quantified quantifier bound body) old new created)
    (captured : ∀ quantifier bound body old new created,
      bound.key ≠ old.key → bound.key = new.key → body.occurs old = true →
      let first := body.substitute bound (bound.renamed created) (created + 1)
      motive body bound (bound.renamed created) (created + 1) →
      motive first.1 old new first.2 →
      motive (.quantified quantifier bound body) old new created)
    (inside : ∀ quantifier bound body old new created,
      bound.key ≠ old.key → (bound.key = new.key → body.occurs old = false) →
      motive body old new created →
      motive (.quantified quantifier bound body) old new created)
    (member : ∀ element set old new created, motive (.member element set) old new created)
    (ordered : ∀ left relation right old new created,
      motive (.ordered left relation right) old new created)
    (p : Proposition) (old new : Object) (created : Nat) : motive p old new created := by
  -- The second pass of a renaming runs on the result of the first, which is no
  -- part of the proposition but has its size.
  induction size : p.size using Nat.strongRecOn generalizing p old new created with
  | ind count smaller =>
      subst size
      cases p with
      | atom name arguments => exact atom name arguments old new created
      | falsum => exact falsum old new created
      | binary left connective right =>
          apply binary
          · exact smaller left.size (by simp only [size]; omega) left _ _ _ rfl
          · exact smaller right.size (by simp only [size]; omega) right _ _ _ rfl
      | quantified quantifier binder body =>
          have less : body.size < (Proposition.quantified quantifier binder body).size := by
            simp only [size]
            omega
          by_cases isOld : binder.key = old.key
          · exact bound quantifier binder body old new created isOld
          · by_cases isCaptured : binder.key = new.key ∧ body.occurs old = true
            · apply captured quantifier binder body old new created isOld isCaptured.1 isCaptured.2
              · exact smaller body.size less body _ _ _ rfl
              · exact smaller body.size less _ _ _ _ (size_substitute body _ _ _)
            · apply inside quantifier binder body old new created isOld
              · intro isNew
                exact Bool.eq_false_iff.mpr fun occurs => isCaptured ⟨isNew, occurs⟩
              · exact smaller body.size less body _ _ _ rfl
      | member element set => exact member element set old new created
      | ordered left relation right => exact ordered left relation right old new created

/-- Substitution does not change what a proposition is made by. -/
theorem eq_of_substitute_binary {p left right : Proposition} {connective : Connective}
    {old new : Object} {created : Nat}
    (isBinary : (p.substitute old new created).1 = binary left connective right) :
    ∃ left' right', p = binary left' connective right' ∧
      left = (left'.substitute old new created).1 := by
  cases p with
  | binary left' connective' right' =>
      rw [substitute_binary] at isBinary
      cases isBinary
      exact ⟨left', right', rfl, rfl⟩
  | quantified quantifier bound body =>
      rw [substitute_quantified] at isBinary
      split at isBinary
      · cases isBinary
      · split at isBinary <;> cases isBinary
  | atom name arguments =>
      rw [substitute_atom] at isBinary
      cases isBinary
  | falsum =>
      rw [substitute_falsum] at isBinary
      cases isBinary
  | member element set =>
      rw [substitute_member] at isBinary
      cases isBinary
  | ordered first relation second =>
      rw [substitute_ordered] at isBinary
      cases isBinary

/-! ## New variables -/

/-- The new variables that substitution creates, in order. A quantifier that gives way gets its
new variable before anything is done in its body. -/
inductive Introduces : Proposition → Object → Object → Nat → List Object → Prop
  | atom {name : String} {arguments : List Argument} {old new : Object} {created : Nat} :
      Introduces (.atom name arguments) old new created []
  | falsum {old new : Object} {created : Nat} : Introduces .falsum old new created []
  | binary {left right : Proposition} {connective : Connective} {old new : Object} {created : Nat}
      {first second : List Object} :
      Introduces left old new created first →
      Introduces right old new (left.substitute old new created).2 second →
      Introduces (.binary left connective right) old new created (first ++ second)
  | bound {quantifier : Quantifier} {bound old new : Object} {body : Proposition}
      {created : Nat} :
      bound.key = old.key → Introduces (.quantified quantifier bound body) old new created []
  | captured {quantifier : Quantifier} {bound old new : Object} {body : Proposition}
      {created : Nat} {inner outer : List Object} :
      bound.key ≠ old.key → bound.key = new.key → body.occurs old = true →
      Introduces body bound (bound.renamed created) (created + 1) inner →
      Introduces (body.substitute bound (bound.renamed created) (created + 1)).1 old new
        (body.substitute bound (bound.renamed created) (created + 1)).2 outer →
      Introduces (.quantified quantifier bound body) old new created
        (bound.renamed created :: (inner ++ outer))
  | inside {quantifier : Quantifier} {bound old new : Object} {body : Proposition}
      {created : Nat} {renamings : List Object} :
      bound.key ≠ old.key → (bound.key = new.key → body.occurs old = false) →
      Introduces body old new created renamings →
      Introduces (.quantified quantifier bound body) old new created renamings
  | member {element old new : Object} {set : Collection} {created : Nat} :
      Introduces (.member element set) old new created []
  | ordered {left right old new : Object} {relation : Relation} {created : Nat} :
      Introduces (.ordered left relation right) old new created []

theorem exists_introduces (p : Proposition) (old new : Object) (created : Nat) :
    ∃ renamings, p.Introduces old new created renamings := by
  induction p, old, new, created using substitute_induction with
  | atom name arguments old new created => exact ⟨[], .atom⟩
  | falsum old new created => exact ⟨[], .falsum⟩
  | binary left connective right old new created leftInduction rightInduction =>
      rcases leftInduction with ⟨first, ofLeft⟩
      rcases rightInduction with ⟨second, ofRight⟩
      exact ⟨first ++ second, .binary ofLeft ofRight⟩
  | bound quantifier bound body old new created isOld => exact ⟨[], .bound isOld⟩
  | captured quantifier bound body old new created notOld isNew occurs first firstInduction
      secondInduction =>
      rcases firstInduction with ⟨inner, ofBody⟩
      rcases secondInduction with ⟨outer, ofFirst⟩
      exact ⟨_, .captured notOld isNew occurs ofBody ofFirst⟩
  | inside quantifier bound body old new created notOld notCaptured induction =>
      rcases induction with ⟨renamings, ofBody⟩
      exact ⟨renamings, .inside notOld notCaptured ofBody⟩
  | member element set old new created => exact ⟨[], .member⟩
  | ordered left relation right old new created => exact ⟨[], .ordered⟩

namespace Introduces

variable {p : Proposition} {old new x : Object} {created : Nat} {renamings : List Object}

/-- New variables are numbered on. -/
theorem numbered (introduces : p.Introduces old new created renamings) :
    Object.Numbered created renamings (p.substitute old new created).2 := by
  induction introduces with
  | atom => exact substitute_atom .. ▸ .nil _
  | falsum => exact substitute_falsum .. ▸ .nil _
  | binary _ _ firstNumbered secondNumbered =>
      rw [substitute_binary]
      exact firstNumbered.append secondNumbered
  | bound isOld => exact substitute_bound isOld .. ▸ .nil _
  | captured notOld isNew occurs _ _ innerNumbered outerNumbered =>
      rw [substitute_captured notOld isNew occurs]
      exact .cons rfl (innerNumbered.append outerNumbered)
  | inside notOld notCaptured _ numbered =>
      rw [substitute_inside notOld notCaptured]
      exact numbered
  | member => exact substitute_member .. ▸ .nil _
  | ordered => exact substitute_ordered .. ▸ .nil _

theorem exists_renamed (introduces : p.Introduces old new created renamings)
    (member : x ∈ renamings) : ∃ y number, x = Object.renamed y number := by
  induction introduces with
  | binary _ _ firstInduction secondInduction =>
      exact (List.mem_append.mp member).elim firstInduction secondInduction
  | captured _ _ _ _ _ innerInduction outerInduction =>
      rcases List.mem_cons.mp member with rfl | isLater
      · exact ⟨_, _, rfl⟩
      · exact (List.mem_append.mp isLater).elim innerInduction outerInduction
  | inside _ _ _ induction => exact induction member
  | _ => cases member

/-- The objects of the result are objects of the proposition, the replacement or new
variables. -/
theorem mem_objects (introduces : p.Introduces old new created renamings)
    (member : x ∈ (p.substitute old new created).1.objects) :
    x ∈ p.objects ∨ x = new ∨ x ∈ renamings := by
  induction introduces with
  | @atom name arguments old new created =>
      rw [substitute_atom] at member
      rcases List.mem_flatMap.mp member with ⟨replaced, replacedMember, isObject⟩
      rcases List.mem_map.mp replacedMember with ⟨argument, argumentMember, rfl⟩
      cases argument with
      | object y =>
          have ofArgument : y ∈ (Proposition.atom name arguments).objects :=
            List.mem_flatMap.mpr ⟨_, argumentMember, List.mem_singleton_self y⟩
          rw [List.mem_singleton.mp isObject]
          rcases y.replace_cases old new with isOld | isNew
          · rw [isOld]
            exact .inl ofArgument
          · exact .inr (.inl isNew)
      | set s => cases isObject
  | falsum =>
      rw [substitute_falsum] at member
      cases member
  | binary _ _ firstInduction secondInduction =>
      rw [substitute_binary] at member
      simp only [objects, List.mem_append] at member ⊢
      grind
  | bound isOld =>
      rw [substitute_bound isOld] at member
      exact .inl member
  | captured notOld isNew occurs _ _ innerInduction outerInduction =>
      rw [substitute_captured notOld isNew occurs] at member
      simp only [objects, List.mem_cons, List.mem_append] at member ⊢
      grind
  | inside notOld notCaptured _ induction =>
      rw [substitute_inside notOld notCaptured] at member
      simp only [objects, List.mem_cons] at member ⊢
      grind
  | @member element old new set created =>
      rw [substitute_member] at member
      simp only [objects, List.mem_singleton] at member ⊢
      rw [member]
      exact (element.replace_cases old new).imp_right .inl
  | @ordered left right old new relation created =>
      rw [substitute_ordered] at member
      have ofLeft := left.replace_cases old new
      have ofRight := right.replace_cases old new
      simp only [objects, List.mem_cons, List.not_mem_nil, or_false] at member ⊢
      grind

end Introduces

theorem le_count_substitute (p : Proposition) (old new : Object) (created : Nat) :
    created ≤ (p.substitute old new created).2 := by
  rcases p.exists_introduces old new created with ⟨_, introduces⟩
  exact introduces.numbered.le

end Proposition

/-! ## Counting

Objects are numbered in the order of their creation. A new variable is told from
all objects that precede it. -/

/-- Holds of every name, and of the objects without name that are among the
first `created` objects. -/
def Object.Key.Precedes (created : Nat) : Object.Key → Prop
  | named _ => True
  | unnamed id => id ≤ created

/-- All unnamed objects of the proposition are among the first `created` ones. -/
def Proposition.Precedes (created : Nat) (p : Proposition) : Prop :=
  ∀ x ∈ p.objects, x.key.Precedes created

namespace Object

theorem precedes_of_id_le {x : Object} {created : Nat} (le : x.id ≤ created) :
    x.key.Precedes created := by
  unfold key
  split
  · exact le
  · trivial

theorem Key.Precedes.mono {key : Key} {created later : Nat}
    (precedes : key.Precedes created) (le : created ≤ later) : key.Precedes later := by
  cases key with
  | named name => trivial
  | unnamed id => exact Nat.le_trans precedes le

theorem Key.Precedes.ne_next {key : Key} {created : Nat}
    (precedes : key.Precedes created) : key ≠ .unnamed (created + 1) := by
  rintro rfl
  exact Nat.not_succ_le_self created precedes

@[simp] theorem key_renamed (x : Object) (created : Nat) :
    (x.renamed created).key = .unnamed (created + 1) := by
  simp [renamed, key]

theorem key_replace (x old new : Object) :
    (x.replace old new).key = if x.key = old.key then new.key else x.key := by
  simp only [replace, beq_iff_key]
  split <;> rfl

end Object

namespace Proposition

theorem Precedes.mono {p : Proposition} {created later : Nat}
    (precedes : p.Precedes created) (le : created ≤ later) : p.Precedes later :=
  fun x member => (precedes x member).mono le

theorem Precedes.substitute {p : Proposition} {old new : Object} {created : Nat}
    (precedes : p.Precedes created) (newPrecedes : new.key.Precedes created) :
    (p.substitute old new created).1.Precedes (p.substitute old new created).2 := by
  rcases p.exists_introduces old new created with ⟨renamings, introduces⟩
  have numbered := introduces.numbered
  intro x member
  rcases introduces.mem_objects member with isOld | rfl | isRenamed
  · exact (precedes x isOld).mono numbered.le
  · exact newPrecedes.mono numbered.le
  · exact Object.precedes_of_id_le (numbered.id_le isRenamed)

/-- What occurs free in a proposition is one of its objects. -/
theorem exists_object_of_occurs {p : Proposition} {x : Object} (occurs : p.occurs x = true) :
    ∃ y ∈ p.objects, y.key = x.key := by
  induction p with
  | atom name arguments =>
      obtain ⟨argument, member, isObject⟩ := List.any_eq_true.mp occurs
      cases argument with
      | object y =>
          exact ⟨y, List.mem_flatMap.mpr ⟨_, member, List.mem_singleton_self y⟩,
            Object.beq_iff_key.mp isObject⟩
      | set s => cases isObject
  | falsum => cases occurs
  | binary left connective right leftInduction rightInduction =>
      rcases Bool.or_eq_true_iff.mp occurs with inLeft | inRight
      · obtain ⟨y, member, same⟩ := leftInduction inLeft
        exact ⟨y, List.mem_append_left _ member, same⟩
      · obtain ⟨y, member, same⟩ := rightInduction inRight
        exact ⟨y, List.mem_append_right _ member, same⟩
  | quantified quantifier bound body induction =>
      obtain ⟨y, member, same⟩ := induction (Bool.and_eq_true_iff.mp occurs).2
      exact ⟨y, List.mem_cons_of_mem _ member, same⟩
  | member element set =>
      exact ⟨element, List.mem_singleton_self element, Object.beq_iff_key.mp occurs⟩
  | ordered left relation right =>
      rcases Bool.or_eq_true_iff.mp occurs with isLeft | isRight
      · exact ⟨left, List.mem_cons_self, Object.beq_iff_key.mp isLeft⟩
      · exact ⟨right, List.mem_cons_of_mem _ (List.mem_singleton_self right),
          Object.beq_iff_key.mp isRight⟩

theorem Precedes.of_occurs {p : Proposition} {created : Nat} {x : Object}
    (precedes : p.Precedes created) (occurs : p.occurs x = true) : x.key.Precedes created := by
  obtain ⟨y, member, same⟩ := exists_object_of_occurs occurs
  exact same ▸ precedes y member

end Proposition

end Deduction
