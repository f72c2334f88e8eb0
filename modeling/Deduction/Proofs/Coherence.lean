import Deduction.Proofs.Binding
import Mathlib.Data.List.Nodup

/-! # Coherent schemas

A composite declares what its parts declare, each name once. This is so when it is
built, and every binding keeps it so at all levels: the slots of a composite and those
of its parts are filled in step. Bound values are of the declared kinds, so that a
schema with nothing left to bind has a proposition. -/

namespace Deduction

namespace Schema

variable {parameter : String} {value : Argument} {schema bound part : Schema}

/-! ## Merged declarations -/

section Merge

variable {listed added : List (String × ArgumentKind)}

theorem any_name_iff {name : String} :
    (listed.any fun entry => entry.1 == name) = true ↔ name ∈ listed.map Prod.fst := by
  rw [List.any_eq_true, List.mem_map]
  simp only [beq_iff_eq]

theorem merge_cons_of_mem {entry : String × ArgumentKind}
    (member : entry.1 ∈ listed.map Prod.fst) :
    merge listed (entry :: added) = merge listed added := by
  rw [merge, List.foldl_cons, if_pos (any_name_iff.mpr member)]
  rfl

theorem merge_cons_of_not_mem {entry : String × ArgumentKind}
    (notMember : entry.1 ∉ listed.map Prod.fst) :
    merge listed (entry :: added) = merge (listed ++ [entry]) added := by
  rw [merge, List.foldl_cons, if_neg fun isListed => notMember (any_name_iff.mp isListed)]
  rfl

/-- If no name is added twice, those are added that are not listed. -/
theorem merge_eq_append (distinct : (added.map Prod.fst).Nodup) :
    merge listed added =
      listed ++ added.filter fun entry => entry.1 ∉ listed.map Prod.fst := by
  induction added generalizing listed with
  | nil => simp [merge]
  | cons entry added induction =>
      rcases List.nodup_cons.mp distinct with ⟨isFirst, restDistinct⟩
      by_cases member : entry.1 ∈ listed.map Prod.fst
      · rw [merge_cons_of_mem member, induction restDistinct,
          List.filter_cons_of_neg (by simpa using member)]
      · rw [merge_cons_of_not_mem member, induction restDistinct,
          List.filter_cons_of_pos (by simpa using member), List.append_assoc, List.singleton_append]
        congr 2
        apply List.filter_congr
        intro other otherMember
        have different : other.1 ≠ entry.1 := fun same =>
          isFirst (same ▸ List.mem_map_of_mem otherMember)
        simp [different]

theorem mem_names_merge (distinct : (added.map Prod.fst).Nodup) {name : String} :
    name ∈ (merge listed added).map Prod.fst ↔
      name ∈ listed.map Prod.fst ∨ name ∈ added.map Prod.fst := by
  rw [merge_eq_append distinct, List.map_append, List.mem_append]
  constructor
  · rintro (inListed | inOthers)
    · exact .inl inListed
    · exact .inr ((List.filter_sublist.map _).subset inOthers)
  · rintro (inListed | inAdded)
    · exact .inl inListed
    · by_cases isListed : name ∈ listed.map Prod.fst
      · exact .inl isListed
      · obtain ⟨entry, member, rfl⟩ := List.mem_map.mp inAdded
        exact .inr (List.mem_map_of_mem (List.mem_filter.mpr ⟨member, decide_eq_true isListed⟩))

theorem merge_eq_nil_iff (distinct : (added.map Prod.fst).Nodup) :
    merge listed added = [] ↔ listed = [] ∧ added = [] := by
  rw [merge_eq_append distinct, List.append_eq_nil_iff]
  constructor
  · rintro ⟨rfl, noneAdded⟩
    simpa using noneAdded
  · rintro ⟨rfl, rfl⟩
    exact ⟨rfl, rfl⟩

theorem merge_distinct (listedDistinct : (listed.map Prod.fst).Nodup)
    (addedDistinct : (added.map Prod.fst).Nodup) : ((merge listed added).map Prod.fst).Nodup := by
  rw [merge_eq_append addedDistinct, List.map_append, List.nodup_append']
  refine ⟨listedDistinct, addedDistinct.sublist (List.filter_sublist.map _), ?_⟩
  intro name inListed inAdded
  obtain ⟨entry, member, rfl⟩ := List.mem_map.mp inAdded
  exact of_decide_eq_true (List.mem_filter.mp member).2 inListed

theorem merge_filter (distinct : (added.map Prod.fst).Nodup) (kept : String → Bool) :
    merge (listed.filter fun entry => kept entry.1) (added.filter fun entry => kept entry.1) =
      (merge listed added).filter fun entry => kept entry.1 := by
  have distinct' : ((added.filter fun entry => kept entry.1).map Prod.fst).Nodup :=
    distinct.sublist (List.filter_sublist.map _)
  rw [merge_eq_append distinct, merge_eq_append distinct', List.filter_append, List.filter_filter,
    List.filter_filter]
  congr 1
  apply List.filter_congr
  intro entry member
  have sameNames : kept entry.1 = true →
      (entry.1 ∈ (listed.filter fun entry => kept entry.1).map Prod.fst ↔
        entry.1 ∈ listed.map Prod.fst) := by
    intro isKept
    simp only [List.mem_map, List.mem_filter]
    constructor
    · rintro ⟨other, ⟨member, _⟩, same⟩
      exact ⟨other, member, same⟩
    · rintro ⟨other, member, same⟩
      exact ⟨other, ⟨member, same ▸ isKept⟩, same⟩
  cases isKept : kept entry.1 with
  | false => simp
  | true => simp only [sameNames isKept, Bool.and_true, Bool.true_and]

end Merge

/-- Where names are distinct, binding one of them leaves all entries with other names. -/
theorem eraseP_eq_filter {entries : List (String × ArgumentKind)}
    (distinct : (entries.map Prod.fst).Nodup) :
    (entries.eraseP fun entry => entry.1 == parameter) =
      entries.filter fun entry => entry.1 != parameter := by
  induction entries with
  | nil => rfl
  | cons entry entries induction =>
      rcases List.nodup_cons.mp distinct with ⟨isFirst, restDistinct⟩
      by_cases same : entry.1 = parameter
      · have others : entries.filter (fun entry => entry.1 != parameter) = entries := by
          apply List.filter_eq_self.mpr
          intro other member
          have different : other.1 ≠ parameter := fun same' =>
            isFirst (same.trans same'.symm ▸ List.mem_map_of_mem member)
          simpa using different
        simp [same, others]
      · simp [same, induction restDistinct]

end Schema

/-! ## Layouts -/

/-- The parameters that a form declares, except for a generic statement, which declares
whatever it is given. -/
def Form.declarations : Form → Option (List (String × ArgumentKind))
  | generic => none
  | membership => some [("x", .object), ("set_", .set)]
  | ordering _ => some [("x", .object), ("y", .object)]
  | subset => some [("x", .object), ("A", .set), ("B", .set)]

/-- The proposition that a form makes of the values of its parameters. -/
def Form.proposition (name : String) : Form → List Argument → Option Proposition
  | generic, values => some (.atom name values)
  | membership, [.object x, .set s] => some (.member x s)
  | ordering relation, [.object x, .object y] => some (.ordered x relation y)
  | subset, [.object x, .set a, .set b] =>
      some (.quantified .universal x ((Proposition.member x a).implies (.member x b)))
  | _, _ => none

theorem Argument.exists_object {argument : Argument} (kind : argument.kind = .object) :
    ∃ x, argument = .object x := by
  cases argument with
  | object x => exact ⟨x, rfl⟩
  | set s => cases kind

theorem Argument.exists_set {argument : Argument} (kind : argument.kind = .set) :
    ∃ s, argument = .set s := by
  cases argument with
  | object x => cases kind
  | set s => exact ⟨s, rfl⟩

theorem Form.exists_proposition (name : String) (form : Form) {values : List Argument}
    (kinds : ∀ declared, form.declarations = some declared →
      values.map Argument.kind = declared.map Prod.snd) :
    ∃ p, form.proposition name values = some p := by
  cases form with
  | generic => exact ⟨_, rfl⟩
  | membership =>
      obtain ⟨_, _, rfl, isObject, others⟩ := List.map_eq_cons_iff.mp (kinds _ rfl)
      obtain ⟨_, _, rfl, isSet, ending⟩ := List.map_eq_cons_iff.mp others
      obtain ⟨x, rfl⟩ := Argument.exists_object isObject
      obtain ⟨s, rfl⟩ := Argument.exists_set isSet
      obtain rfl := List.map_eq_nil_iff.mp ending
      exact ⟨_, rfl⟩
  | ordering relation =>
      obtain ⟨_, _, rfl, isFirst, others⟩ := List.map_eq_cons_iff.mp (kinds _ rfl)
      obtain ⟨_, _, rfl, isSecond, ending⟩ := List.map_eq_cons_iff.mp others
      obtain ⟨x, rfl⟩ := Argument.exists_object isFirst
      obtain ⟨y, rfl⟩ := Argument.exists_object isSecond
      obtain rfl := List.map_eq_nil_iff.mp ending
      exact ⟨_, rfl⟩
  | subset =>
      obtain ⟨_, _, rfl, isObject, sets⟩ := List.map_eq_cons_iff.mp (kinds _ rfl)
      obtain ⟨_, _, rfl, isFirst, others⟩ := List.map_eq_cons_iff.mp sets
      obtain ⟨_, _, rfl, isSecond, ending⟩ := List.map_eq_cons_iff.mp others
      obtain ⟨x, rfl⟩ := Argument.exists_object isObject
      obtain ⟨a, rfl⟩ := Argument.exists_set isFirst
      obtain ⟨b, rfl⟩ := Argument.exists_set isSecond
      obtain rfl := List.map_eq_nil_iff.mp ending
      exact ⟨_, rfl⟩

namespace Slot

variable {slot : Slot}

theorem exists_value (fits : slot.Fits) (isBound : ¬slot.isFree) :
    ∃ value, slot.value = some value ∧ value.kind = slot.kind := by
  cases isValue : slot.value with
  | none => exact absurd (by rw [isFree, isValue]; rfl) isBound
  | some value => exact ⟨value, rfl, fits value isValue⟩

theorem exists_values {slots : List Slot} (fits : ∀ slot ∈ slots, slot.Fits)
    (bound : ∀ slot ∈ slots, ¬slot.isFree) :
    ∃ values : List Argument, slots.map Slot.value = values.map some ∧
      values.map Argument.kind = slots.map Slot.kind := by
  induction slots with
  | nil => exact ⟨[], rfl, rfl⟩
  | cons slot slots induction =>
      rcases List.forall_mem_cons.mp fits with ⟨slotFits, restFit⟩
      rcases List.forall_mem_cons.mp bound with ⟨slotBound, restBound⟩
      obtain ⟨value, isValue, kind⟩ := exists_value slotFits slotBound
      obtain ⟨values, areValues, kinds⟩ := induction restFit restBound
      exact ⟨value :: values, by simp [isValue, areValues], by simp [kind, kinds]⟩

theorem fits_declared (parameters : List (String × ArgumentKind)) :
    ∀ slot ∈ parameters.map declare, slot.Fits :=
  List.forall_mem_map.mpr fun _ _ _ isValue => nomatch isValue

@[simp] theorem remaining_declare (parameters : List (String × ArgumentKind)) :
    remaining (parameters.map declare) = parameters := by
  induction parameters with
  | nil => rfl
  | cons parameter parameters induction =>
      rw [List.map_cons, remaining_cons, induction]
      rfl

/-- The first slot of a list is filled if it is free and of the given name. -/
theorem exists_fill_cons (parameter : String) (value : Argument) (slot : Slot)
    (slots : List Slot) :
    ∃ first others, fill parameter value (slot :: slots) = first :: others ∧
      first.kind = slot.kind ∧
      remaining [first] = (remaining [slot]).filter fun entry => entry.1 != parameter := by
  by_cases fills : slot.parameter = parameter ∧ slot.isFree
  · refine ⟨_, _, fill_cons_same slots fills, rfl, ?_⟩
    simp [remaining, isFree, declaration, fills.1]
  · refine ⟨_, _, fill_cons_other slots fills, rfl, ?_⟩
    by_cases free : slot.isFree
    · have different : slot.parameter ≠ parameter := fun same => fills ⟨same, free⟩
      simp [remaining, free, declaration, different]
    · simp [remaining, free]

end Slot

/-! ## Coherence -/

namespace Schema

variable {parameter : String} {value : Argument} {schema bound part : Schema}

def Coherent : Schema → Prop
  | settled _ => True
  | elementary _ slots form =>
      (∀ slot ∈ slots, slot.Fits) ∧ (slots.map Slot.parameter).Nodup ∧
        ∀ declared, form.declarations = some declared → slots.map Slot.declaration = declared
  | binary _ slots left _ right =>
      left.Coherent ∧ right.Coherent ∧ (∀ slot ∈ slots, slot.Fits) ∧
        Slot.remaining slots = merge left.remaining right.remaining
  | quantified _ slots _ inner =>
      inner.Coherent ∧ (∀ slot ∈ slots, slot.Fits) ∧
        ∃ first others, slots = first :: others ∧ first.kind = .object ∧
          Slot.remaining slots = merge (Slot.remaining [first]) inner.remaining

theorem distinct_first (slot : Slot) : ((Slot.remaining [slot]).map Prod.fst).Nodup := by
  rw [Slot.remaining_cons]
  split <;> simp

theorem Coherent.distinct (coherent : schema.Coherent) : schema.names.Nodup := by
  induction schema with
  | settled p => exact List.nodup_nil
  | elementary name slots form =>
      have sublist : (names (elementary name slots form)).Sublist (slots.map Slot.parameter) := by
        rw [names, remaining_eq, Slot.remaining, List.map_map]
        exact List.filter_sublist.map _
      exact coherent.2.1.sublist sublist
  | binary name slots left connective right leftInduction rightInduction =>
      rcases coherent with ⟨ofLeft, ofRight, _, inStep⟩
      change ((Slot.remaining slots).map Prod.fst).Nodup
      rw [inStep]
      exact merge_distinct (leftInduction ofLeft) (rightInduction ofRight)
  | quantified name slots quantifier inner induction =>
      rcases coherent with ⟨ofInner, _, first, others, _, _, inStep⟩
      change ((Slot.remaining slots).map Prod.fst).Nodup
      rw [inStep]
      exact merge_distinct (distinct_first first) (induction ofInner)

/-! ## Bindings keep coherence -/

theorem Coherent.remaining_of_partStep {motive : Schema → Schema → Prop}
    (coherent : schema.Coherent) (step : PartStep parameter value motive schema part) :
    part.remaining = schema.remaining.filter fun entry => entry.1 != parameter := by
  rw [step.remaining, eraseP_eq_filter coherent.distinct]

theorem Coherent.of_partStep (coherent : schema.Coherent)
    (step : PartStep parameter value (fun schema bound => schema.Coherent → bound.Coherent)
      schema part) : part.Coherent := by
  cases step with
  | untouched _ => exact coherent
  | unfinished _ _ kept _ => exact kept coherent
  | settled _ _ _ _ _ => exact True.intro

theorem Coherent.bind (coherent : schema.Coherent)
    (ok : schema.bind parameter value = .ok bound) : bound.Coherent := by
  refine bind_induction (motive := fun schema bound => schema.Coherent → bound.Coherent)
    ?_ ?_ ?_ ok coherent
  · rintro name slots form checked ⟨fits, distinct, layout⟩
    have names : (Slot.fill parameter value slots).map Slot.parameter =
        slots.map Slot.parameter := by
      have declarations : (Slot.fill parameter value slots).map Slot.declaration =
          slots.map Slot.declaration := Slot.map_declaration_fill slots
      have sameNames := congrArg (List.map Prod.fst) declarations
      rwa [List.map_map, List.map_map] at sameNames
    refine ⟨Slot.fits_fill fits (check_eq_ok_iff.mp checked).1, names ▸ distinct, ?_⟩
    rwa [Slot.map_declaration_fill]
  · intro name slots left left' connective right right' checked leftStep rightStep coherent
    have distinct : ((Slot.remaining slots).map Prod.fst).Nodup := coherent.distinct
    rcases coherent with ⟨ofLeft, ofRight, fits, inStep⟩
    refine ⟨ofLeft.of_partStep leftStep, ofRight.of_partStep rightStep,
      Slot.fits_fill fits (check_eq_ok_iff.mp checked).1, ?_⟩
    rw [Slot.remaining_fill, eraseP_eq_filter distinct, ofLeft.remaining_of_partStep leftStep,
      ofRight.remaining_of_partStep rightStep, merge_filter ofRight.distinct (· != parameter),
      inStep]
  · intro name slots quantifier inner inner' checked step coherent
    have distinct : ((Slot.remaining slots).map Prod.fst).Nodup := coherent.distinct
    rcases coherent with ⟨ofInner, fits, first, others, rfl, kind, inStep⟩
    obtain ⟨first', others', isFilled, kind', remaining⟩ :=
      Slot.exists_fill_cons parameter value first others
    refine ⟨ofInner.of_partStep step, Slot.fits_fill fits (check_eq_ok_iff.mp checked).1,
      first', others', isFilled, kind'.trans kind, ?_⟩
    rw [Slot.remaining_fill, eraseP_eq_filter distinct, remaining,
      ofInner.remaining_of_partStep step, merge_filter ofInner.distinct (· != parameter),
      inStep]

theorem Coherent.bindAll {bindings : List (String × Argument)} (coherent : schema.Coherent)
    (ok : schema.bindAll bindings = .ok bound) : bound.Coherent := by
  induction bindings generalizing schema with
  | nil =>
      cases ok
      exact coherent
  | cons binding bindings induction =>
      obtain ⟨next, isNext, ok⟩ := bindAll_cons_eq_ok_iff.mp ok
      exact induction (coherent.bind isNext) ok

/-! ## Closed schemas -/

theorem not_isFree_of_arity_eq_zero (closed : schema.arity = 0) :
    ∀ slot ∈ schema.slots, ¬slot.isFree := by
  have none : schema.slots.filter Slot.isFree = [] :=
    List.map_eq_nil_iff.mp (List.eq_nil_of_length_eq_zero closed)
  exact List.filter_eq_nil_iff.mp none

theorem objectAt_eq_ok {index : Nat} {slot : Slot} {x : Object}
    (found : schema.slots[index]? = some slot) (isObject : slot.value = some (.object x)) :
    schema.objectAt index = .ok x := by
  rcases slot with ⟨name, kind, bound⟩
  cases isObject
  rw [objectAt, found]

theorem setAt_eq_ok {index : Nat} {slot : Slot} {s : Collection}
    (found : schema.slots[index]? = some slot) (isSet : slot.value = some (.set s)) :
    schema.setAt index = .ok s := by
  rcases slot with ⟨name, kind, bound⟩
  cases isSet
  rw [setAt, found]

/-- The proposition of an elementary schema is what its form makes of the values. -/
theorem elementaryStatement_eq_ok {name : String} {slots : List Slot} {form : Form}
    {values : List Argument} {p : Proposition} (areValues : slots.map Slot.value = values.map some)
    (isProposition : form.proposition name values = some p) :
    elementaryStatement name slots form = .ok p := by
  unfold Form.proposition at isProposition
  split at isProposition
  · have bound : slots.filterMap Slot.value = values := by
      have flattened := congrArg (List.filterMap id) areValues
      simpa [List.filterMap_map] using flattened
    cases isProposition
    rw [elementaryStatement, bound]
    rfl
  · obtain ⟨first, rest, rfl, isX, areValues⟩ := List.map_eq_cons_iff.mp areValues
    obtain ⟨second, rest, rfl, isSet, _⟩ := List.map_eq_cons_iff.mp areValues
    cases isProposition
    rw [elementaryStatement, objectAt_eq_ok rfl isX, setAt_eq_ok rfl isSet]
    rfl
  · obtain ⟨first, rest, rfl, isX, areValues⟩ := List.map_eq_cons_iff.mp areValues
    obtain ⟨second, rest, rfl, isY, _⟩ := List.map_eq_cons_iff.mp areValues
    cases isProposition
    rw [elementaryStatement, objectAt_eq_ok rfl isX, objectAt_eq_ok rfl isY]
    rfl
  · obtain ⟨first, rest, rfl, isX, areValues⟩ := List.map_eq_cons_iff.mp areValues
    obtain ⟨second, rest, rfl, isA, areValues⟩ := List.map_eq_cons_iff.mp areValues
    obtain ⟨third, rest, rfl, isB, _⟩ := List.map_eq_cons_iff.mp areValues
    cases isProposition
    rw [elementaryStatement, objectAt_eq_ok rfl isX, setAt_eq_ok rfl isA, setAt_eq_ok rfl isB]
    rfl
  · cases isProposition

theorem Coherent.exists_values {name : String} {slots : List Slot} {form : Form}
    (coherent : (elementary name slots form).Coherent)
    (closed : (elementary name slots form).arity = 0) :
    ∃ values p, slots.map Slot.value = values.map some ∧ form.proposition name values = some p := by
  rcases coherent with ⟨fits, _, layout⟩
  obtain ⟨values, areValues, kinds⟩ :=
    Slot.exists_values fits (not_isFree_of_arity_eq_zero closed)
  obtain ⟨p, isProposition⟩ := form.exists_proposition name fun declared isDeclared => by
    rw [kinds, ← layout declared isDeclared, List.map_map]
    rfl
  exact ⟨values, p, areValues, isProposition⟩

theorem complete_of_arity_eq_zero (closed : schema.arity = 0) : schema.complete = .ok () :=
  if_pos closed

theorem arity_eq_zero_iff : schema.arity = 0 ↔ schema.remaining = [] :=
  List.length_eq_zero_iff

/-- What is declared at some level is declared at all levels above it. -/
theorem Coherent.of_mem_parts (coherent : schema.Coherent) (isPart : part ∈ schema.parts) :
    part.Coherent ∧ part.names ⊆ schema.names := by
  induction schema with
  | settled p =>
      cases List.mem_singleton.mp isPart
      exact ⟨coherent, List.Subset.refl _⟩
  | elementary name slots form =>
      cases List.mem_singleton.mp isPart
      exact ⟨coherent, List.Subset.refl _⟩
  | binary name slots left connective right leftInduction rightInduction =>
      rcases List.mem_cons.mp isPart with rfl | inParts
      · exact ⟨coherent, List.Subset.refl _⟩
      · rcases coherent with ⟨ofLeft, ofRight, _, inStep⟩
        have declared : ∀ name, name ∈ left.names ∨ name ∈ right.names →
            name ∈ (Slot.remaining slots).map Prod.fst := by
          intro name member
          rw [inStep]
          exact (mem_names_merge ofRight.distinct).mpr member
        rcases List.mem_append.mp inParts with inLeft | inRight
        · obtain ⟨ofPart, subset⟩ := leftInduction ofLeft inLeft
          exact ⟨ofPart, fun name member => declared name (.inl (subset member))⟩
        · obtain ⟨ofPart, subset⟩ := rightInduction ofRight inRight
          exact ⟨ofPart, fun name member => declared name (.inr (subset member))⟩
  | quantified name slots quantifier inner induction =>
      rcases List.mem_cons.mp isPart with rfl | inInner
      · exact ⟨coherent, List.Subset.refl _⟩
      · rcases coherent with ⟨ofInner, _, first, others, _, _, inStep⟩
        obtain ⟨ofPart, subset⟩ := induction ofInner inInner
        refine ⟨ofPart, fun name member => ?_⟩
        change name ∈ (Slot.remaining slots).map Prod.fst
        rw [inStep]
        exact (mem_names_merge ofInner.distinct).mpr (.inr (subset member))

/-! ## Construction -/

/-- The schemas that can be built, from parts that may have been applied to some of
their values before. Every generic schema lists different names. -/
inductive Constructed : Schema → Prop
  | settled (p : Proposition) : Constructed (settled p)
  | generic (name : String) {parameters : List (String × ArgumentKind)} :
      (parameters.map Prod.fst).Nodup → Constructed (generic name parameters)
  | membership (name : String) : Constructed (membership name)
  | ordering (name : String) (relation : Relation) : Constructed (ordering name relation)
  | subset (name : String) : Constructed (subset name)
  | combine (name : String) (connective : Connective) {left right : Schema} :
      Constructed left → Constructed right → Constructed (combine name left connective right)
  | quantify (name : String) (quantifier : Quantifier) (variableName : String) {inner : Schema} :
      Constructed inner → Constructed (quantify name quantifier variableName inner)
  | applied {schema : Schema} {bindings : Bindings} {assert : Bool} {store : Store}
      {reduction : Reduction} : Constructed schema →
      (Kernel.outcome (Kernel.applySchema schema bindings assert) store).1 = .ok reduction →
      Constructed reduction.part

theorem coherent_declare (name : String) {form : Form}
    {parameters : List (String × ArgumentKind)} (distinct : (parameters.map Prod.fst).Nodup)
    (layout : ∀ declared, form.declarations = some declared → parameters = declared) :
    (elementary name (parameters.map Slot.declare) form).Coherent := by
  have declarations : (parameters.map Slot.declare).map Slot.declaration = parameters := by
    rw [List.map_map]
    exact List.map_id parameters
  refine ⟨Slot.fits_declared _, ?_, ?_⟩
  · rwa [List.map_map]
  · rwa [declarations]

theorem Coherent.combine {left right : Schema} (name : String) (connective : Connective)
    (ofLeft : left.Coherent) (ofRight : right.Coherent) :
    (combine name left connective right).Coherent :=
  ⟨ofLeft, ofRight, Slot.fits_declared _, Slot.remaining_declare _⟩

theorem Coherent.quantify {inner : Schema} (name : String) (quantifier : Quantifier)
    (variableName : String) (ofInner : inner.Coherent) :
    (quantify name quantifier variableName inner).Coherent := by
  have merged : merge [(variableName, .object)] inner.remaining = _ :=
    merge_eq_append ofInner.distinct
  exact ⟨ofInner, Slot.fits_declared _, Slot.declare (variableName, .object), _,
    congrArg (List.map Slot.declare) merged, rfl, Slot.remaining_declare _⟩

theorem part_of_reduced {assert : Bool} {certified : Nat} {reduction : Reduction}
    (ok : schema.reduced assert certified = .ok reduction) :
    reduction.part = schema ∨ ∃ p, reduction.part = settled p := by
  rcases reduced_cases ok with ⟨_, rfl⟩ | ⟨p, _, _, rfl⟩
  · exact .inl rfl
  · cases assert with
    | false => exact .inr ⟨_, rfl⟩
    | true => exact .inr ⟨_, rfl⟩

theorem Constructed.coherent (constructed : schema.Constructed) : schema.Coherent := by
  induction constructed with
  | settled p => trivial
  | generic name distinct =>
      exact coherent_declare name distinct fun _ isDeclared => nomatch isDeclared
  | membership name =>
      exact coherent_declare name (by decide) fun _ isDeclared => Option.some.inj isDeclared
  | ordering name relation =>
      exact coherent_declare name (by decide) fun _ isDeclared => Option.some.inj isDeclared
  | subset name =>
      exact coherent_declare name (by decide) fun _ isDeclared => Option.some.inj isDeclared
  | combine name connective _ _ ofLeft ofRight => exact ofLeft.combine name connective ofRight
  | quantify name quantifier variableName _ ofInner =>
      exact ofInner.quantify name quantifier variableName
  | applied _ ok ofSchema =>
      rw [Kernel.outcome_applySchema] at ok
      obtain ⟨bound, isBound, ok⟩ := Inference.ok_of_bind ok
      rcases part_of_reduced ok with isPart | ⟨p, isPart⟩
      · exact isPart ▸ ofSchema.bindAll isBound
      · exact isPart ▸ True.intro

end Schema

end Deduction
