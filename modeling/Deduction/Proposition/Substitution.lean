import Deduction.Proposition

/-! # Substitution

Replacing the free occurrences of an object in a proposition. A quantifier that
would capture the replacement is given a new, unnamed variable first. New
variables take the numbers that follow the count of objects created so far, so
substitution takes that count and returns it advanced. -/

namespace Deduction

def Object.replace (x old new : Object) : Object :=
  if x == old then new else x

def Argument.replace (old new : Object) : Argument → Argument
  | .object x => .object (x.replace old new)
  | .set s => .set s

/-- An unnamed variable that ranges over the same set as `x`. -/
def Object.renamed (x : Object) (created : Nat) : Object where
  id := created + 1
  name := ""
  owner := x.owner
  components := []

namespace Proposition

/-- The number of nodes. -/
def size : Proposition → Nat
  | atom _ _ => 1
  | falsum => 1
  | binary left _ right => left.size + right.size + 1
  | quantified _ _ body => body.size + 1
  | member _ _ => 1
  | ordered _ _ _ => 1

/-! Renaming a bound variable substitutes into the body twice: the new variable
for the bound one, then the replacement. The second pass works on the result of
the first, which has as many nodes as the body; for this reason the size stands
in the type. -/

def substituteSized (p : Proposition) (old new : Object) (created : Nat) :
    { result : Proposition × Nat // result.1.size = p.size } :=
  match p with
  | atom name arguments =>
      ⟨(atom name (arguments.map (Argument.replace old new)), created), rfl⟩
  | falsum => ⟨(falsum, created), rfl⟩
  | binary left connective right =>
      let ⟨first, firstSize⟩ := substituteSized left old new created
      let ⟨second, secondSize⟩ := substituteSized right old new first.2
      ⟨(binary first.1 connective second.1, second.2), by
        simp only [size, firstSize, secondSize]⟩
  | quantified quantifier bound body =>
      if bound == old then
        ⟨(quantified quantifier bound body, created), rfl⟩
      else if bound == new && body.occurs old then
        let fresh := bound.renamed created
        let ⟨first, firstSize⟩ := substituteSized body bound fresh (created + 1)
        let ⟨second, secondSize⟩ := substituteSized first.1 old new first.2
        ⟨(quantified quantifier fresh second.1, second.2), by
          simp only [size, firstSize, secondSize]⟩
      else
        let ⟨inner, innerSize⟩ := substituteSized body old new created
        ⟨(quantified quantifier bound inner.1, inner.2), by
          simp only [size, innerSize]⟩
  | member element set => ⟨(member (element.replace old new) set, created), rfl⟩
  | ordered left relation right =>
      ⟨(ordered (left.replace old new) relation (right.replace old new), created), rfl⟩
termination_by p.size
decreasing_by all_goals (simp only [size]; omega)

/-- The proposition with `new` for every free occurrence of `old`, and the
count of objects after it. -/
def substitute (p : Proposition) (old new : Object) (created : Nat) : Proposition × Nat :=
  (substituteSized p old new created).1

/-! ## Equations

One equation per form of proposition, free of sizes. -/

theorem size_substitute (p : Proposition) (old new : Object) (created : Nat) :
    (p.substitute old new created).1.size = p.size :=
  (substituteSized p old new created).2

@[simp] theorem substitute_atom (name : String) (arguments : List Argument)
    (old new : Object) (created : Nat) :
    (atom name arguments).substitute old new created =
      (atom name (arguments.map (Argument.replace old new)), created) := by
  rw [substitute, substituteSized]

@[simp] theorem substitute_falsum (old new : Object) (created : Nat) :
    falsum.substitute old new created = (falsum, created) := by
  rw [substitute, substituteSized]

theorem substitute_binary (left right : Proposition) (connective : Connective)
    (old new : Object) (created : Nat) :
    (binary left connective right).substitute old new created =
      let first := left.substitute old new created
      let second := right.substitute old new first.2
      (binary first.1 connective second.1, second.2) := by
  rw [substitute, substituteSized]
  rfl

theorem substitute_quantified (quantifier : Quantifier) (bound : Object)
    (body : Proposition) (old new : Object) (created : Nat) :
    (quantified quantifier bound body).substitute old new created =
      if bound == old then
        (quantified quantifier bound body, created)
      else if bound == new && body.occurs old then
        let first := body.substitute bound (bound.renamed created) (created + 1)
        let second := first.1.substitute old new first.2
        (quantified quantifier (bound.renamed created) second.1, second.2)
      else
        let inner := body.substitute old new created
        (quantified quantifier bound inner.1, inner.2) := by
  rw [substitute, substituteSized]
  split
  · rfl
  · split <;> rfl

@[simp] theorem substitute_member (element : Object) (set : Collection)
    (old new : Object) (created : Nat) :
    (member element set).substitute old new created =
      (member (element.replace old new) set, created) := by
  rw [substitute, substituteSized]

@[simp] theorem substitute_ordered (left right : Object) (relation : Relation)
    (old new : Object) (created : Nat) :
    (ordered left relation right).substitute old new created =
      (ordered (left.replace old new) relation (right.replace old new), created) := by
  rw [substitute, substituteSized]

end Proposition

end Deduction
