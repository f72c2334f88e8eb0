import Deduction.Proofs.Rules

/-! # What binding does

A successful binding fills one slot at every level that declares the parameter and
settles the parts that have nothing left to bind. Which parameters are left, and of
which kind, is all that decides whether a value is accepted; so both are followed
through bindings of single parameters, of parts and of lists of parameters. -/

namespace Deduction

open Inference (ok_of_bind)

/-! ## Slots -/

namespace Slot

variable {parameter other : String} {value : Argument}

def declaration (slot : Slot) : String × ArgumentKind :=
  (slot.parameter, slot.kind)

/-- The declarations of the free slots. -/
def remaining (slots : List Slot) : List (String × ArgumentKind) :=
  (slots.filter isFree).map declaration

/-- The bound value is of the declared kind. -/
def Fits (slot : Slot) : Prop :=
  ∀ value, slot.value = some value → value.kind = slot.kind

@[simp] theorem remaining_nil : remaining [] = [] := rfl

theorem remaining_cons (slot : Slot) (slots : List Slot) :
    remaining (slot :: slots) =
      if slot.isFree then slot.declaration :: remaining slots else remaining slots := by
  cases free : slot.isFree <;> simp [remaining, free]

theorem fill_cons_same {slot : Slot} (slots : List Slot)
    (fills : slot.parameter = parameter ∧ slot.isFree) :
    fill parameter value (slot :: slots) = { slot with value := some value } :: slots :=
  if_pos fills

theorem fill_cons_other {slot : Slot} (slots : List Slot)
    (passes : ¬(slot.parameter = parameter ∧ slot.isFree)) :
    fill parameter value (slot :: slots) = slot :: fill parameter value slots :=
  if_neg passes

@[simp] theorem map_declaration_fill (slots : List Slot) :
    (fill parameter value slots).map declaration = slots.map declaration := by
  induction slots with
  | nil => rfl
  | cons slot slots induction =>
      by_cases fills : slot.parameter = parameter ∧ slot.isFree
      · rw [fill_cons_same slots fills]
        rfl
      · rw [fill_cons_other slots fills, List.map_cons, List.map_cons, induction]

theorem remaining_fill (slots : List Slot) :
    remaining (fill parameter value slots) =
      (remaining slots).eraseP fun entry => entry.1 == parameter := by
  induction slots with
  | nil => rfl
  | cons slot slots induction =>
      by_cases fills : slot.parameter = parameter ∧ slot.isFree
      · have bound : remaining ({ slot with value := some value } :: slots) = remaining slots := by
          simp [remaining_cons, isFree]
        rw [fill_cons_same slots fills, bound, remaining_cons, if_pos fills.2]
        simp [declaration, fills.1]
      · rw [fill_cons_other slots fills, remaining_cons, remaining_cons, induction]
        by_cases free : slot.isFree
        · have different : slot.parameter ≠ parameter := fun same => fills ⟨same, free⟩
          simp [free, declaration, different]
        · simp [free]

theorem fill_comm (different : other ≠ parameter) (value' : Argument) (slots : List Slot) :
    fill other value' (fill parameter value slots) =
      fill parameter value (fill other value' slots) := by
  induction slots with
  | nil => rfl
  | cons slot slots induction =>
      by_cases fills : slot.parameter = parameter ∧ slot.isFree
      · have passes : ¬(slot.parameter = other ∧ slot.isFree) :=
          fun fillsOther => different (fillsOther.1.symm.trans fills.1)
        rw [fill_cons_same slots fills, fill_cons_other slots passes, fill_cons_same _ fills]
        exact if_neg fun fillsOther => passes ⟨fillsOther.1, fills.2⟩
      · rw [fill_cons_other slots fills]
        by_cases fillsOther : slot.parameter = other ∧ slot.isFree
        · rw [fill_cons_same slots fillsOther, fill_cons_same _ fillsOther]
          exact (if_neg fun bound => Bool.noConfusion bound.2).symm
        · rw [fill_cons_other _ fillsOther, fill_cons_other _ fillsOther,
            fill_cons_other _ fills, induction]

theorem mem_fill {slot : Slot} {slots : List Slot} (member : slot ∈ fill parameter value slots) :
    slot ∈ slots ∨ slot.value = some value := by
  induction slots with
  | nil => cases member
  | cons head slots induction =>
      by_cases fills : head.parameter = parameter ∧ head.isFree
      · rw [fill_cons_same slots fills] at member
        rcases List.mem_cons.mp member with rfl | member
        · exact .inr rfl
        · exact .inl (List.mem_cons_of_mem _ member)
      · rw [fill_cons_other slots fills] at member
        rcases List.mem_cons.mp member with rfl | member
        · exact .inl List.mem_cons_self
        · exact (induction member).imp_left (List.mem_cons_of_mem _)

theorem fits_fill {slots : List Slot} (fits : ∀ slot ∈ slots, slot.Fits)
    (kind : (remaining slots).lookup parameter = some value.kind) :
    ∀ slot ∈ fill parameter value slots, slot.Fits := by
  induction slots with
  | nil => exact fits
  | cons head slots induction =>
      rcases List.forall_mem_cons.mp fits with ⟨headFits, restFit⟩
      by_cases fills : head.parameter = parameter ∧ head.isFree
      · rw [fill_cons_same slots fills]
        rw [remaining_cons, if_pos fills.2, declaration, fills.1, List.lookup_cons_self] at kind
        refine List.forall_mem_cons.mpr ⟨fun bound isBound => ?_, restFit⟩
        cases isBound
        exact (Option.some.inj kind).symm
      · rw [fill_cons_other slots fills]
        refine List.forall_mem_cons.mpr ⟨headFits, induction restFit ?_⟩
        by_cases free : head.isFree
        · have different : (parameter == head.parameter) = false := by
            simpa using fun same => fills ⟨same.symm, free⟩
          rwa [remaining_cons, if_pos free, declaration, List.lookup_cons, different] at kind
        · rwa [remaining_cons, if_neg free] at kind

end Slot

namespace Schema

variable {parameter other : String} {value : Argument} {schema bound part : Schema}

/-! ## What is left to bind -/

theorem remaining_eq (schema : Schema) : schema.remaining = Slot.remaining schema.slots := rfl

/-- The names of the free parameters. -/
def names (schema : Schema) : List String :=
  schema.remaining.map Prod.fst

theorem lookup_remaining (schema : Schema) (parameter : String) :
    schema.remaining.lookup parameter = (schema.freeSlot parameter).map Slot.kind := by
  rw [remaining_eq, freeSlot]
  induction schema.slots with
  | nil => rfl
  | cons slot slots induction =>
      by_cases fills : slot.parameter = parameter ∧ slot.isFree
      · simp [Slot.remaining_cons, fills.2, Slot.declaration, fills.1]
      · by_cases free : slot.isFree
        · have different : slot.parameter ≠ parameter := fun same => fills ⟨same, free⟩
          have apart : (parameter == slot.parameter) = false := by simpa using different.symm
          simp [Slot.remaining_cons, free, Slot.declaration, List.lookup_cons, apart, different,
            induction]
        · simp [Slot.remaining_cons, free, induction]

theorem declares_iff_lookup :
    schema.declares parameter = (schema.remaining.lookup parameter).isSome := by
  rw [lookup_remaining, Option.isSome_map, declares]

theorem declares_iff_mem_names : schema.declares parameter = true ↔ parameter ∈ schema.names := by
  rw [declares_iff_lookup, List.lookup_isSome_iff, names, List.mem_map]
  simp only [beq_iff_eq, @eq_comm _ parameter]

theorem arity_pos_of_declares (declares : schema.declares parameter = true) : schema.arity ≠ 0 := by
  intro none
  rw [declares_iff_mem_names, names, List.eq_nil_of_length_eq_zero none] at declares
  cases declares

theorem lookup_of_mem {α : Type} {entries : List (String × α)} {entry : String × α}
    (distinct : (entries.map Prod.fst).Nodup) (member : entry ∈ entries) :
    entries.lookup entry.1 = some entry.2 := by
  induction entries with
  | nil => cases member
  | cons first entries induction =>
      rcases first with ⟨name, value⟩
      obtain ⟨isNew, distinct⟩ := List.nodup_cons.mp distinct
      rw [List.lookup_cons]
      rcases List.mem_cons.mp member with rfl | member
      · rw [beq_self_eq_true]
      · have apart : (entry.1 == name) = false :=
          beq_eq_false_iff_ne.mpr fun same => isNew (List.mem_map.mpr ⟨entry, member, same⟩)
        rw [apart]
        exact induction distinct member

theorem lookup_eraseP_of_ne (different : other ≠ parameter)
    (entries : List (String × ArgumentKind)) :
    (entries.eraseP fun entry => entry.1 == parameter).lookup other = entries.lookup other := by
  induction entries with
  | nil => rfl
  | cons entry entries induction =>
      rcases entry with ⟨name, kind⟩
      by_cases same : name = parameter
      · have apart : (other == name) = false := by simpa [same] using different
        simp [same, List.lookup_cons, same ▸ apart]
      · simp [same, List.lookup_cons, induction]

/-! ## Checks -/

/-- An inclusion, the only form that restricts the order of bindings. -/
def isInclusion : Schema → Bool
  | elementary _ _ form => form = .subset
  | _ => false

theorem check_eq_ok_iff :
    schema.check parameter value = .ok () ↔
      schema.remaining.lookup parameter = some value.kind ∧
        (schema.isInclusion = true → parameter = "x" → schema.arity = 1) := by
  rw [lookup_remaining]
  unfold check
  cases schema.freeSlot parameter with
  | none => simp
  | some slot =>
      by_cases sameKind : slot.kind = value.kind
      · cases schema with
        | elementary name slots form =>
            cases form with
            | subset => by_cases first : parameter = "x" <;> simp [sameKind, first, isInclusion]
            | _ => simp [sameKind, isInclusion]
        | _ => simp [sameKind, isInclusion]
      · simp [sameKind]

/-! ## Single bindings -/

theorem settle_of_arity_ne_zero (free : schema.arity ≠ 0) : schema.settle = .ok schema :=
  if_neg free

theorem bindPart_of_not_declares (silent : schema.declares parameter = false) :
    schema.bindPart parameter value = .ok schema := by
  simp [bindPart, refine, silent]

theorem bindPart_of_declares (declares : schema.declares parameter = true) :
    schema.bindPart parameter value = schema.bind parameter value >>= settle := by
  rw [bindPart, refine, if_pos declares]
  rfl

theorem bind_elementary_eq_ok_iff {name : String} {slots : List Slot} {form : Form} :
    (elementary name slots form).bind parameter value = .ok bound ↔
      (elementary name slots form).check parameter value = .ok () ∧
        bound = elementary name (Slot.fill parameter value slots) form := by
  constructor
  · intro ok
    obtain ⟨_, checked, ok⟩ := ok_of_bind ok
    cases ok
    exact ⟨checked, rfl⟩
  · rintro ⟨checked, rfl⟩
    rw [bind, checked]
    rfl

theorem bind_binary_eq_ok_iff {name : String} {slots : List Slot} {left right : Schema}
    {connective : Connective} :
    (binary name slots left connective right).bind parameter value = .ok bound ↔
      (binary name slots left connective right).check parameter value = .ok () ∧
        ∃ left' right', left.bindPart parameter value = .ok left' ∧
          right.bindPart parameter value = .ok right' ∧
          bound = binary name (Slot.fill parameter value slots) left' connective right' := by
  constructor
  · intro ok
    obtain ⟨_, checked, ok⟩ := ok_of_bind ok
    obtain ⟨left', leftBound, ok⟩ := ok_of_bind ok
    obtain ⟨right', rightBound, ok⟩ := ok_of_bind ok
    cases ok
    exact ⟨checked, left', right', leftBound, rightBound, rfl⟩
  · rintro ⟨checked, left', right', leftBound, rightBound, rfl⟩
    rw [bindPart] at leftBound rightBound
    rw [bind, checked, leftBound, rightBound]
    rfl

theorem bind_quantified_eq_ok_iff {name : String} {slots : List Slot} {quantifier : Quantifier}
    {inner : Schema} :
    (quantified name slots quantifier inner).bind parameter value = .ok bound ↔
      (quantified name slots quantifier inner).check parameter value = .ok () ∧
        ∃ inner', inner.bindPart parameter value = .ok inner' ∧
          bound = quantified name (Slot.fill parameter value slots) quantifier inner' := by
  constructor
  · intro ok
    obtain ⟨_, checked, ok⟩ := ok_of_bind ok
    obtain ⟨inner', innerBound, ok⟩ := ok_of_bind ok
    cases ok
    exact ⟨checked, inner', innerBound, rfl⟩
  · rintro ⟨checked, inner', innerBound, rfl⟩
    rw [bindPart] at innerBound
    rw [bind, checked, innerBound]
    rfl

theorem check_of_bind (ok : schema.bind parameter value = .ok bound) :
    schema.check parameter value = .ok () := by
  cases schema with
  | settled p => cases ok
  | elementary name slots form => exact (bind_elementary_eq_ok_iff.mp ok).1
  | binary name slots left connective right => exact (bind_binary_eq_ok_iff.mp ok).1
  | quantified name slots quantifier inner => exact (bind_quantified_eq_ok_iff.mp ok).1

theorem slots_of_bind (ok : schema.bind parameter value = .ok bound) :
    bound.slots = Slot.fill parameter value schema.slots := by
  cases schema with
  | settled p => cases ok
  | elementary name slots form =>
      obtain ⟨_, rfl⟩ := bind_elementary_eq_ok_iff.mp ok
      rfl
  | binary name slots left connective right =>
      obtain ⟨_, left', right', _, _, rfl⟩ := bind_binary_eq_ok_iff.mp ok
      rfl
  | quantified name slots quantifier inner =>
      obtain ⟨_, inner', _, rfl⟩ := bind_quantified_eq_ok_iff.mp ok
      rfl

theorem remaining_of_bind (ok : schema.bind parameter value = .ok bound) :
    bound.remaining = schema.remaining.eraseP fun entry => entry.1 == parameter := by
  rw [remaining_eq, slots_of_bind ok, Slot.remaining_fill, remaining_eq]

theorem declares_of_bind_of_ne (different : other ≠ parameter)
    (ok : schema.bind parameter value = .ok bound) :
    bound.declares other = schema.declares other := by
  rw [declares_iff_lookup, declares_iff_lookup, remaining_of_bind ok, lookup_eraseP_of_ne different]

theorem isInclusion_of_bind (ok : schema.bind parameter value = .ok bound) :
    bound.isInclusion = schema.isInclusion := by
  cases schema with
  | settled p => cases ok
  | elementary name slots form =>
      obtain ⟨_, rfl⟩ := bind_elementary_eq_ok_iff.mp ok
      rfl
  | binary name slots left connective right =>
      obtain ⟨_, left', right', _, _, rfl⟩ := bind_binary_eq_ok_iff.mp ok
      rfl
  | quantified name slots quantifier inner =>
      obtain ⟨_, inner', _, rfl⟩ := bind_quantified_eq_ok_iff.mp ok
      rfl

/-! ## Parts -/

/-- What binding does to a part. Whatever holds of every schema and what binding
makes of it is at hand for the parts that are bound. -/
inductive PartStep (parameter : String) (value : Argument) (motive : Schema → Schema → Prop) :
    Schema → Schema → Prop
  | untouched {part : Schema} : part.declares parameter = false →
      PartStep parameter value motive part part
  | unfinished {part bound : Schema} : part.declares parameter = true →
      part.bind parameter value = .ok bound → motive part bound → bound.arity ≠ 0 →
      PartStep parameter value motive part bound
  | settled {part bound : Schema} {p : Proposition} : part.declares parameter = true →
      part.bind parameter value = .ok bound → motive part bound → bound.arity = 0 →
      bound.statement = .ok p → PartStep parameter value motive part (.settled p)

theorem partStep_of_bindPart {motive : Schema → Schema → Prop}
    (related : ∀ {bound}, schema.bind parameter value = .ok bound → motive schema bound)
    (ok : schema.bindPart parameter value = .ok part) :
    PartStep parameter value motive schema part := by
  by_cases declares : schema.declares parameter = true
  · rw [bindPart_of_declares declares] at ok
    obtain ⟨bound, isBound, settles⟩ := ok_of_bind ok
    by_cases free : bound.arity = 0
    · rw [settle, if_pos free] at settles
      cases isStatement : bound.statement with
      | error fault =>
          rw [isStatement] at settles
          cases settles
      | ok p =>
          rw [isStatement] at settles
          cases settles
          exact .settled declares isBound (related isBound) free isStatement
    · rw [settle_of_arity_ne_zero free] at settles
      cases settles
      exact .unfinished declares isBound (related isBound) free
  · rw [Bool.not_eq_true] at declares
    rw [bindPart_of_not_declares declares] at ok
    cases ok
    exact .untouched declares

/-- What holds of every schema and what binding makes of it, because it passes from the
parts to the whole. -/
theorem bind_induction {motive : Schema → Schema → Prop}
    (elementary : ∀ {name slots form},
      (elementary name slots form).check parameter value = .ok () →
      motive (elementary name slots form)
        (.elementary name (Slot.fill parameter value slots) form))
    (binary : ∀ {name slots left left' connective right right'},
      (binary name slots left connective right).check parameter value = .ok () →
      PartStep parameter value motive left left' →
      PartStep parameter value motive right right' →
      motive (binary name slots left connective right)
        (.binary name (Slot.fill parameter value slots) left' connective right'))
    (quantified : ∀ {name slots quantifier inner inner'},
      (quantified name slots quantifier inner).check parameter value = .ok () →
      PartStep parameter value motive inner inner' →
      motive (quantified name slots quantifier inner)
        (.quantified name (Slot.fill parameter value slots) quantifier inner'))
    (ok : schema.bind parameter value = .ok bound) : motive schema bound := by
  induction schema generalizing bound with
  | settled p => cases ok
  | elementary name slots form =>
      obtain ⟨checked, rfl⟩ := bind_elementary_eq_ok_iff.mp ok
      exact elementary checked
  | binary name slots left connective right leftInduction rightInduction =>
      obtain ⟨checked, left', right', leftBound, rightBound, rfl⟩ := bind_binary_eq_ok_iff.mp ok
      exact binary checked (partStep_of_bindPart leftInduction leftBound)
        (partStep_of_bindPart rightInduction rightBound)
  | quantified name slots quantifier inner induction =>
      obtain ⟨checked, inner', innerBound, rfl⟩ := bind_quantified_eq_ok_iff.mp ok
      exact quantified checked (partStep_of_bindPart induction innerBound)

theorem PartStep.remaining {motive : Schema → Schema → Prop}
    (step : PartStep parameter value motive schema part) :
    part.remaining = schema.remaining.eraseP fun entry => entry.1 == parameter := by
  cases step with
  | untouched silent =>
      refine (List.eraseP_of_forall_not fun entry member same => ?_).symm
      rw [Bool.eq_false_iff] at silent
      exact silent (declares_iff_mem_names.mpr (beq_iff_eq.mp same ▸ List.mem_map_of_mem member))
  | unfinished _ isBound _ _ => exact remaining_of_bind isBound
  | settled _ isBound _ free _ =>
      rw [← remaining_of_bind isBound]
      exact (List.eq_nil_of_length_eq_zero free).symm

theorem PartStep.declares_of_ne {motive : Schema → Schema → Prop}
    (step : PartStep parameter value motive schema part) (different : other ≠ parameter) :
    part.declares other = schema.declares other := by
  rw [declares_iff_lookup, declares_iff_lookup, step.remaining, lookup_eraseP_of_ne different]

/-! ## Levels of a schema -/

/-- The schema and its parts, at any depth. -/
def parts : Schema → List Schema
  | settled p => [settled p]
  | elementary name slots form => [elementary name slots form]
  | binary name slots left connective right =>
      binary name slots left connective right :: (left.parts ++ right.parts)
  | quantified name slots quantifier inner =>
      quantified name slots quantifier inner :: inner.parts

theorem self_mem_parts (schema : Schema) : schema ∈ schema.parts := by
  cases schema <;> simp [parts]

/-- Every level of the second schema was a level of the first one, with the same or
more free parameters. -/
def Covers (schema bound : Schema) : Prop :=
  ∀ part ∈ bound.parts, ∃ original ∈ schema.parts, part.remaining ⊆ original.remaining ∧
    (part.isInclusion = true → original.isInclusion = true)

theorem Covers.of_partStep (step : PartStep parameter value Covers schema part) :
    schema.Covers part := by
  cases step with
  | untouched _ => exact fun other member => ⟨other, member, List.Subset.refl _, id⟩
  | unfinished _ _ covers _ => exact covers
  | settled _ _ _ _ _ =>
      intro other member
      rw [List.mem_singleton.mp member]
      exact ⟨schema, schema.self_mem_parts, List.nil_subset _, fun inclusion => nomatch inclusion⟩

/-- Binding makes no new parts. -/
theorem covers_of_bind (ok : schema.bind parameter value = .ok bound) : schema.Covers bound := by
  have narrows : ∀ slots, Slot.remaining (Slot.fill parameter value slots) ⊆
      Slot.remaining slots := by
    intro slots
    rw [Slot.remaining_fill]
    exact List.eraseP_subset
  refine bind_induction (motive := Covers) ?_ ?_ ?_ ok
  · intro name slots form _ part member
    rw [List.mem_singleton.mp member]
    exact ⟨_, List.mem_cons_self, narrows slots, id⟩
  · intro name slots left left' connective right right' _ leftStep rightStep part member
    rcases List.mem_cons.mp member with rfl | inParts
    · exact ⟨_, List.mem_cons_self, narrows slots, id⟩
    · rcases List.mem_append.mp inParts with inLeft | inRight
      · obtain ⟨original, isPart, narrower⟩ := Covers.of_partStep leftStep part inLeft
        exact ⟨original, List.mem_cons_of_mem _ (List.mem_append_left _ isPart), narrower⟩
      · obtain ⟨original, isPart, narrower⟩ := Covers.of_partStep rightStep part inRight
        exact ⟨original, List.mem_cons_of_mem _ (List.mem_append_right _ isPart), narrower⟩
  · intro name slots quantifier inner inner' _ step part member
    rcases List.mem_cons.mp member with rfl | inInner
    · exact ⟨_, List.mem_cons_self, narrows slots, id⟩
    · obtain ⟨original, isPart, narrower⟩ := Covers.of_partStep step part inInner
      exact ⟨original, List.mem_cons_of_mem _ isPart, narrower⟩

/-! ## Lists of bindings -/

theorem bindAll_cons_eq_ok_iff {bindings : List (String × Argument)} {result : Schema} :
    schema.bindAll ((parameter, value) :: bindings) = .ok result ↔
      ∃ bound, schema.bind parameter value = .ok bound ∧ bound.bindAll bindings = .ok result := by
  constructor
  · exact ok_of_bind
  · rintro ⟨bound, isBound, ok⟩
    rw [bindAll, isBound]
    exact ok

theorem bindAll_append (first second : List (String × Argument)) (schema : Schema) :
    schema.bindAll (first ++ second) = schema.bindAll first >>= bindAll second := by
  induction first generalizing schema with
  | nil => rfl
  | cons binding first induction =>
      rcases binding with ⟨parameter, value⟩
      rw [List.cons_append, bindAll, bindAll]
      cases schema.bind parameter value with
      | error fault => rfl
      | ok bound => exact induction bound

theorem names_perm_of_bind (ok : schema.bind parameter value = .ok bound) :
    schema.names.Perm (parameter :: bound.names) := by
  have erased : bound.names = schema.names.erase parameter := by
    rw [names, names, remaining_of_bind ok, List.erase_eq_eraseP, List.eraseP_map]
    congr 2
    funext entry
    exact Bool.beq_comm
  rw [erased]
  apply List.perm_cons_erase
  rw [← declares_iff_mem_names, declares_iff_lookup,
    (check_eq_ok_iff.mp (check_of_bind ok)).1]
  rfl

/-- Parameters are bound once each, and those that were not bound are left. -/
theorem names_perm_of_bindAll {bindings : List (String × Argument)}
    (ok : schema.bindAll bindings = .ok bound) :
    schema.names.Perm (bindings.map Prod.fst ++ bound.names) := by
  induction bindings generalizing schema with
  | nil =>
      cases ok
      exact .refl _
  | cons binding bindings induction =>
      obtain ⟨next, isNext, ok⟩ := bindAll_cons_eq_ok_iff.mp ok
      exact (names_perm_of_bind isNext).trans ((induction ok).cons _)

end Schema

/-! ## Applications -/

/-- The proof that asserts a proposition after the given number of proofs. -/
def Proof.postulated (certified : Nat) : Proposition → Proof
  | .quantified .universal x body =>
      ⟨certified + 2, .quantified .universal x body, .postulate,
        [⟨certified + 1, body, .postulate, []⟩]⟩
  | p => ⟨certified + 1, p, .postulate, []⟩

/-- The reduction to a proposition, asserted on demand. -/
def Reduction.concluded (assert : Bool) (certified : Nat) (p : Proposition) : Reduction :=
  if assert then .asserted (.postulated certified p) else .complete p

/-- What an application makes of a schema once the values are bound. -/
def Schema.reduced (assert : Bool) (certified : Nat) (schema : Schema) :
    Except Fault Reduction :=
  if schema.arity = 0 then
    schema.statement.map (Reduction.concluded assert certified)
  else
    .ok (.unfinished schema)

theorem Proof.postulated_conclusion (certified : Nat) (p : Proposition) :
    (Proof.postulated certified p).conclusion = p := by
  unfold postulated
  split <;> rfl

@[simp] theorem Reduction.statement_concluded (assert : Bool) (certified : Nat) (p : Proposition) :
    (concluded assert certified p).statement = some p := by
  cases assert with
  | false => rfl
  | true => exact congrArg some (Proof.postulated_conclusion certified p)

theorem Schema.reduced_cases {schema : Schema} {assert : Bool} {certified : Nat}
    {reduction : Reduction} (ok : schema.reduced assert certified = .ok reduction) :
    (schema.arity ≠ 0 ∧ reduction = .unfinished schema) ∨
    ∃ p, schema.arity = 0 ∧ schema.statement = .ok p ∧
      reduction = .concluded assert certified p := by
  unfold reduced at ok
  split at ok
  · rename_i closed
    cases isStatement : schema.statement with
    | error fault =>
        rw [isStatement] at ok
        cases ok
    | ok p =>
        rw [isStatement] at ok
        cases ok
        exact .inr ⟨p, closed, rfl, rfl⟩
  · rename_i free
    cases ok
    exact .inl ⟨free, rfl⟩

namespace Kernel

theorem outcome_liftExcept_ok {α : Type} (a : α) (store : Store) :
    outcome (liftExcept (.ok a : Except Fault α)) store = (.ok a, store) := rfl

theorem outcome_report (event : Event) (store : Store) :
    outcome (report event) store =
      (.ok (), { store with journal := store.journal ++ [event] }) := rfl

theorem outcome_reportAll (events : List Event) (store : Store) :
    outcome (reportAll events) store =
      (.ok (), { store with journal := store.journal ++ events }) := rfl

theorem outcome_postulate (p : Proposition) (store : Store) :
    (outcome (postulate p) store).1 = .ok (.postulated store.certified p) := by
  unfold postulate
  split
  · rfl
  · rename_i notUniversal
    rw [Proof.postulated]
    · rfl
    · exact notUniversal

theorem outcome_reduce {schema : Schema} (closed : schema.arity = 0) (assert : Bool)
    (store : Store) :
    (outcome (reduce schema assert) store).1 = schema.reduced assert store.certified := by
  rw [Schema.reduced, if_pos closed, reduce]
  cases schema.statement with
  | error fault => rfl
  | ok p =>
      cases assert with
      | false => rfl
      | true =>
          rw [outcome_bind_of_ok (outcome_liftExcept_ok p store),
            outcome_bind_of_ok (outcome_report _ store), if_pos rfl,
            outcome_bind_of_ok (Prod.ext (outcome_postulate p _) rfl)]
          rfl

theorem outcome_applySchema (schema : Schema) (bindings : Bindings) (assert : Bool)
    (store : Store) :
    (outcome (applySchema schema bindings assert) store).1 =
      schema.bindAll bindings.present >>= Schema.reduced assert store.certified := by
  rw [applySchema, outcome_bind_of_ok (outcome_reportAll _ store)]
  cases schema.bindAll bindings.present with
  | error fault => rfl
  | ok bound =>
      rw [outcome_bind_of_ok (outcome_liftExcept_ok bound _)]
      change _ = bound.reduced assert store.certified
      by_cases closed : bound.arity = 0
      · rw [if_pos closed]
        exact outcome_reduce closed assert _
      · rw [if_neg closed, Schema.reduced, if_neg closed]
        rfl

end Kernel

/-- Nothing can be bound once there is a proposition. -/
theorem Reduction.present_of_applyReduction {reduction reduction' : Reduction} {p : Proposition}
    {bindings : Bindings} {assert : Bool} {store : Store}
    (isStatement : reduction.statement = some p)
    (ok : (Kernel.outcome (Kernel.applyReduction reduction bindings assert) store).1 =
      .ok reduction') :
    bindings.present = [] ∧ reduction' = reduction := by
  have noSchema : reduction.schema = none := by
    cases reduction with
    | unfinished schema => cases isStatement
    | complete statement => rfl
    | asserted proof => rfl
  rw [Kernel.applyReduction, noSchema] at ok
  cases isPresent : bindings.present with
  | nil =>
      rw [isPresent] at ok
      cases ok
      exact ⟨rfl, rfl⟩
  | cons binding rest =>
      rw [isPresent] at ok
      cases ok

/-! ## Sample

The schema says that `A` is included in `B` and that `x` is an element of `set_`. The
set may be bound after the variable or before. -/

namespace Schema.Sample

def element : Object := ⟨1, "a", none, []⟩

def smaller : Collection := .plain 1 "S"

def larger : Collection := .plain 2 "T"

def included : Schema :=
  combine "both" (subset "sub") .and (membership "mem")

def setLast : Bindings :=
  [("A", some (.set smaller)), ("y", none), ("B", some (.set larger)),
    ("x", some (.object element)), ("set_", some (.set smaller))]

def setFirst : Bindings :=
  [("set_", some (.set smaller)), ("A", some (.set smaller)), ("B", some (.set larger)),
    ("x", some (.object element))]

end Schema.Sample

end Deduction
