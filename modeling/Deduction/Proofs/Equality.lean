import Deduction.Proofs.Substitution

/-! # Equality of propositions

What a proposition that is equal to a given one looks like. Equality sees the
keys of objects and the names of sets; it does not see which sets bound
variables belong to, but equal propositions have equally many of these. -/

namespace Deduction

/-! ## Equal arguments -/

namespace Argument

/-- What decides whether two arguments are equal. -/
def key : Argument → Object.Key ⊕ String
  | object x => .inl x.key
  | set s => .inr s.name

theorem cases_of_beq {left right : Argument} (equal : (left == right) = true) :
    (∃ x y, left = .object x ∧ right = .object y ∧ x.key = y.key) ∨
      ∃ s t, left = .set s ∧ right = .set t ∧ s.name = t.name := by
  cases left with
  | object x =>
      cases right with
      | object y => exact .inl ⟨x, y, rfl, rfl, Object.beq_iff_key.mp equal⟩
      | set t => cases equal
  | set s =>
      cases right with
      | object y => cases equal
      | set t => exact .inr ⟨s, t, rfl, rfl, Collection.beq_iff_name.mp equal⟩

theorem beq_iff_key {left right : Argument} : (left == right) = true ↔ left.key = right.key := by
  constructor
  · intro equal
    rcases cases_of_beq equal with ⟨x, y, rfl, rfl, sameKey⟩ | ⟨s, t, rfl, rfl, sameName⟩
    · exact congrArg Sum.inl sameKey
    · exact congrArg Sum.inr sameName
  · intro same
    cases left with
    | object x =>
        cases right with
        | object y => exact Object.beq_iff_key.mpr (Sum.inl.inj same)
        | set t => cases same
    | set s =>
        cases right with
        | object y => cases same
        | set t => exact Collection.beq_iff_name.mpr (Sum.inr.inj same)

theorem beq_refl (argument : Argument) : (argument == argument) = true :=
  beq_iff_key.mpr rfl

/-- Lists of arguments are equal if their arguments are, place by place. -/
theorem beq_iff_keys {left right : List Argument} :
    (left == right) = true ↔ left.map key = right.map key := by
  induction left generalizing right with
  | nil => cases right <;> simp
  | cons head tail induction =>
      cases right with
      | nil => simp
      | cons head' tail' => simp [beq_iff_key, induction]

/-- What equal arguments have in common, equal lists of arguments have in common. -/
theorem map_eq_of_beq {β : Type u} {view : Argument → β}
    (respects : ∀ {a b : Argument}, (a == b) = true → view a = view b)
    {left right : List Argument} (equal : (left == right) = true) :
    left.map view = right.map view := by
  induction left generalizing right with
  | nil =>
      cases right with
      | nil => rfl
      | cons head tail => cases equal
  | cons head tail induction =>
      cases right with
      | nil => cases equal
      | cons head' tail' =>
          obtain ⟨ofHead, ofTail⟩ := Bool.and_eq_true_iff.mp equal
          rw [List.map_cons, List.map_cons, respects ofHead, induction ofTail]

theorem map_beq_map {change : Argument → Argument}
    (congr : ∀ {a b : Argument}, (a == b) = true → (change a == change b) = true)
    {left right : List Argument} (equal : (left == right) = true) :
    (left.map change == right.map change) = true := by
  rw [beq_iff_keys, List.map_map, List.map_map]
  exact map_eq_of_beq (fun same => beq_iff_key.mp (congr same)) equal

theorem map_beq_self {change : Argument → Argument}
    (unchanged : ∀ argument, (change argument == argument) = true) (arguments : List Argument) :
    (arguments.map change == arguments) = true := by
  rw [beq_iff_keys, List.map_map]
  exact List.map_congr_left fun argument _ => beq_iff_key.mp (unchanged argument)

/-- Equal arguments have the same objects, place by place. -/
theorem keys_of_beq {left right : List Argument} (equal : (left == right) = true) :
    (left.flatMap objects).map Object.key = (right.flatMap objects).map Object.key := by
  have respects : ∀ {a b : Argument}, (a == b) = true →
      a.objects.map Object.key = b.objects.map Object.key := by
    intro a b same
    rcases cases_of_beq same with ⟨x, y, rfl, rfl, sameKey⟩ | ⟨s, t, rfl, rfl, _⟩
    · simp [objects, sameKey]
    · rfl
  rw [List.map_flatMap, List.map_flatMap, List.flatMap_def, List.flatMap_def,
    map_eq_of_beq respects equal]

end Argument

/-! ## The form of an equal proposition -/

namespace Proposition

variable {p q r : Proposition}

theorem eq_of_atom_beq {name : String} {arguments : List Argument}
    (equal : (atom name arguments == q) = true) :
    ∃ arguments', q = atom name arguments' ∧ (arguments == arguments') = true := by
  cases q with
  | atom name' arguments' =>
      have parts := Bool.and_eq_true_iff.mp equal
      exact ⟨arguments', by rw [eq_of_beq parts.1], parts.2⟩
  | _ => cases equal

theorem eq_of_falsum_beq (equal : (falsum == q) = true) : q = falsum := by
  cases q with
  | falsum => rfl
  | _ => cases equal

theorem eq_of_binary_beq {left right : Proposition} {connective : Connective}
    (equal : (binary left connective right == q) = true) :
    ∃ left' right', q = binary left' connective right' ∧
      (left == left') = true ∧ (right == right') = true := by
  cases q with
  | binary left' connective' right' =>
      have parts := Bool.and_eq_true_iff.mp equal
      have firstParts := Bool.and_eq_true_iff.mp parts.1
      exact ⟨left', right', by rw [eq_of_beq firstParts.1], firstParts.2, parts.2⟩
  | _ => cases equal

theorem eq_of_quantified_beq {quantifier : Quantifier} {bound : Object} {body : Proposition}
    (equal : (quantified quantifier bound body == q) = true) :
    ∃ bound' body', q = quantified quantifier bound' body' ∧
      bound.key = bound'.key ∧ (body == body') = true := by
  cases q with
  | quantified quantifier' bound' body' =>
      have parts := Bool.and_eq_true_iff.mp equal
      have firstParts := Bool.and_eq_true_iff.mp parts.1
      exact ⟨bound', body', by rw [eq_of_beq firstParts.1], Object.beq_iff_key.mp firstParts.2,
        parts.2⟩
  | _ => cases equal

theorem eq_of_member_beq {element : Object} {set : Collection}
    (equal : (member element set == q) = true) :
    ∃ element' set', q = member element' set' ∧
      element.key = element'.key ∧ set.name = set'.name := by
  cases q with
  | member element' set' =>
      have parts := Bool.and_eq_true_iff.mp equal
      exact ⟨element', set', rfl, Object.beq_iff_key.mp parts.1, Collection.beq_iff_name.mp parts.2⟩
  | _ => cases equal

theorem eq_of_ordered_beq {left right : Object} {relation : Relation}
    (equal : (ordered left relation right == q) = true) :
    ∃ left' right', q = ordered left' relation right' ∧
      left.key = left'.key ∧ right.key = right'.key := by
  cases q with
  | ordered left' relation' right' =>
      have parts := Bool.and_eq_true_iff.mp equal
      have firstParts := Bool.and_eq_true_iff.mp parts.1
      exact ⟨left', right', by rw [eq_of_beq firstParts.1], Object.beq_iff_key.mp firstParts.2,
        Object.beq_iff_key.mp parts.2⟩
  | _ => cases equal

theorem length_owners_of_beq (equal : (p == q) = true) : p.owners.length = q.owners.length := by
  induction p generalizing q with
  | atom name arguments =>
      obtain ⟨arguments', rfl, _⟩ := eq_of_atom_beq equal
      rfl
  | falsum => rw [eq_of_falsum_beq equal]
  | binary left connective right leftInduction rightInduction =>
      obtain ⟨left', right', rfl, leftEqual, rightEqual⟩ := eq_of_binary_beq equal
      simp only [owners, List.length_append]
      rw [leftInduction leftEqual, rightInduction rightEqual]
  | quantified quantifier bound body induction =>
      obtain ⟨bound', body', rfl, _, bodyEqual⟩ := eq_of_quantified_beq equal
      simp only [owners, List.length_cons]
      rw [induction bodyEqual]
  | member element set =>
      obtain ⟨element', set', rfl, _⟩ := eq_of_member_beq equal
      rfl
  | ordered left relation right =>
      obtain ⟨left', right', rfl, _⟩ := eq_of_ordered_beq equal
      rfl

@[simp] theorem owners_not (p : Proposition) : p.not.owners = p.owners := by
  unfold Proposition.not
  split
  · simp [owners]
  · simp [owners]

theorem eq_of_negated {p : Proposition} (negated : q.negated = some p) : q = p.implies falsum := by
  unfold Proposition.negated at negated
  split at negated
  · cases negated
    rfl
  · cases negated

/-! ## Equality is an equivalence -/

theorem beq_atom {name : String} {arguments arguments' : List Argument}
    (equal : (arguments == arguments') = true) :
    (atom name arguments == atom name arguments') = true :=
  Bool.and_eq_true_iff.mpr ⟨beq_self_eq_true name, equal⟩

theorem beq_binary {left left' right right' : Proposition} {connective : Connective}
    (leftEqual : (left == left') = true) (rightEqual : (right == right') = true) :
    (binary left connective right == binary left' connective right') = true :=
  Bool.and_eq_true_iff.mpr
    ⟨Bool.and_eq_true_iff.mpr ⟨beq_self_eq_true connective, leftEqual⟩, rightEqual⟩

theorem beq_quantified {quantifier : Quantifier} {bound bound' : Object} {body body' : Proposition}
    (same : bound.key = bound'.key) (equal : (body == body') = true) :
    (quantified quantifier bound body == quantified quantifier bound' body') = true :=
  Bool.and_eq_true_iff.mpr
    ⟨Bool.and_eq_true_iff.mpr ⟨beq_self_eq_true quantifier, Object.beq_iff_key.mpr same⟩, equal⟩

theorem beq_member {x y : Object} {set set' : Collection} (same : x.key = y.key)
    (sameName : set.name = set'.name) : (member x set == member y set') = true :=
  Bool.and_eq_true_iff.mpr
    ⟨Object.beq_iff_key.mpr same, Collection.beq_iff_name.mpr sameName⟩

theorem beq_ordered {left left' right right' : Object} {relation : Relation}
    (leftSame : left.key = left'.key) (rightSame : right.key = right'.key) :
    (ordered left relation right == ordered left' relation right') = true :=
  Bool.and_eq_true_iff.mpr ⟨Bool.and_eq_true_iff.mpr
    ⟨beq_self_eq_true relation, Object.beq_iff_key.mpr leftSame⟩, Object.beq_iff_key.mpr rightSame⟩

theorem beq_refl (p : Proposition) : (p == p) = true := by
  induction p with
  | atom name arguments => exact beq_atom (Argument.beq_iff_keys.mpr rfl)
  | falsum => rfl
  | binary left connective right leftInduction rightInduction =>
      exact beq_binary leftInduction rightInduction
  | quantified quantifier bound body induction => exact beq_quantified rfl induction
  | member element set => exact beq_member rfl rfl
  | ordered left relation right => exact beq_ordered rfl rfl

theorem beq_symm (equal : (p == q) = true) : (q == p) = true := by
  induction p generalizing q with
  | atom name arguments =>
      obtain ⟨arguments', rfl, argumentsEqual⟩ := eq_of_atom_beq equal
      exact beq_atom (Argument.beq_iff_keys.mpr (Argument.beq_iff_keys.mp argumentsEqual).symm)
  | falsum =>
      rw [eq_of_falsum_beq equal]
      rfl
  | binary left connective right leftInduction rightInduction =>
      obtain ⟨left', right', rfl, leftEqual, rightEqual⟩ := eq_of_binary_beq equal
      exact beq_binary (leftInduction leftEqual) (rightInduction rightEqual)
  | quantified quantifier bound body induction =>
      obtain ⟨bound', body', rfl, same, bodyEqual⟩ := eq_of_quantified_beq equal
      exact beq_quantified same.symm (induction bodyEqual)
  | member element set =>
      obtain ⟨element', set', rfl, same, sameName⟩ := eq_of_member_beq equal
      exact beq_member same.symm sameName.symm
  | ordered left relation right =>
      obtain ⟨left', right', rfl, leftSame, rightSame⟩ := eq_of_ordered_beq equal
      exact beq_ordered leftSame.symm rightSame.symm

theorem beq_trans (first : (p == q) = true) (second : (q == r) = true) : (p == r) = true := by
  induction p generalizing q r with
  | atom name arguments =>
      obtain ⟨arguments', rfl, firstEqual⟩ := eq_of_atom_beq first
      obtain ⟨arguments'', rfl, secondEqual⟩ := eq_of_atom_beq second
      exact beq_atom (Argument.beq_iff_keys.mpr
        ((Argument.beq_iff_keys.mp firstEqual).trans (Argument.beq_iff_keys.mp secondEqual)))
  | falsum =>
      rw [eq_of_falsum_beq first] at second
      exact second
  | binary left connective right leftInduction rightInduction =>
      obtain ⟨left', right', rfl, leftFirst, rightFirst⟩ := eq_of_binary_beq first
      obtain ⟨left'', right'', rfl, leftSecond, rightSecond⟩ := eq_of_binary_beq second
      exact beq_binary (leftInduction leftFirst leftSecond)
        (rightInduction rightFirst rightSecond)
  | quantified quantifier bound body induction =>
      obtain ⟨bound', body', rfl, firstSame, bodyFirst⟩ := eq_of_quantified_beq first
      obtain ⟨bound'', body'', rfl, secondSame, bodySecond⟩ := eq_of_quantified_beq second
      exact beq_quantified (firstSame.trans secondSame) (induction bodyFirst bodySecond)
  | member element set =>
      obtain ⟨element', set', rfl, firstSame, firstName⟩ := eq_of_member_beq first
      obtain ⟨element'', set'', rfl, secondSame, secondName⟩ := eq_of_member_beq second
      exact beq_member (firstSame.trans secondSame) (firstName.trans secondName)
  | ordered left relation right =>
      obtain ⟨left', right', rfl, leftFirst, rightFirst⟩ := eq_of_ordered_beq first
      obtain ⟨left'', right'', rfl, leftSecond, rightSecond⟩ := eq_of_ordered_beq second
      exact beq_ordered (leftFirst.trans leftSecond) (rightFirst.trans rightSecond)

end Proposition

end Deduction
