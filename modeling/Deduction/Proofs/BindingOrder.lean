import Deduction.Proofs.Evaluation

/-! # Order of bindings

The sets of an inclusion are bound before its variable. Where the parts of a schema agree
on the kinds of their parameters, this is all that can go wrong: every other sequence of
bindings with values of the declared kinds is accepted. -/

namespace Deduction

namespace Schema

variable {parameter : String} {value : Argument} {schema bound part : Schema}
  {done : List String}

/-! ## Inclusions waiting for their sets -/

/-- An inclusion whose variable is free while one of its sets is neither bound nor among
the given names. -/
def Awaits (done : List String) (schema : Schema) : Prop :=
  schema.isInclusion = true ∧ "x" ∈ schema.names ∧
    ∃ set ∈ ["A", "B"], set ∈ schema.names ∧ set ∉ done

def OutOfOrder (done : List String) (schema : Schema) : Prop :=
  ∃ part ∈ schema.parts, part.Awaits done

/-- Some binding of the variable comes before the sets are bound. -/
def BreaksOrder (schema : Schema) (bindings : List (String × Argument)) : Prop :=
  ∃ earlier value later, bindings = earlier ++ ("x", value) :: later ∧
    schema.OutOfOrder (earlier.map Prod.fst)

/-- Parts that have free parameters of the same name have them of the same kind. -/
def KindsAgree (schema : Schema) : Prop :=
  ∀ first ∈ schema.parts, ∀ second ∈ schema.parts, ∀ name kind kind',
    (name, kind) ∈ first.remaining → (name, kind') ∈ second.remaining → kind = kind'

theorem outOfOrder_settled (p : Proposition) : ¬(settled p).OutOfOrder done := by
  rintro ⟨part, isPart, inclusion, _⟩
  rw [List.mem_singleton.mp isPart] at inclusion
  cases inclusion

theorem outOfOrder_elementary {name : String} {slots : List Slot} {form : Form} :
    (elementary name slots form).OutOfOrder done ↔ (elementary name slots form).Awaits done := by
  simp [OutOfOrder, parts]

theorem outOfOrder_binary {name : String} {slots : List Slot} {left right : Schema}
    {connective : Connective} :
    (binary name slots left connective right).OutOfOrder done ↔
      left.OutOfOrder done ∨ right.OutOfOrder done := by
  have noInclusion : ¬(binary name slots left connective right).Awaits done :=
    fun awaits => nomatch awaits.1
  simp [OutOfOrder, parts, noInclusion, or_and_right, exists_or]

theorem outOfOrder_quantified {name : String} {slots : List Slot} {inner : Schema}
    {quantifier : Quantifier} :
    (quantified name slots quantifier inner).OutOfOrder done ↔ inner.OutOfOrder done := by
  have noInclusion : ¬(quantified name slots quantifier inner).Awaits done :=
    fun awaits => nomatch awaits.1
  simp [OutOfOrder, parts, noInclusion]

theorem Coherent.not_outOfOrder_of_not_mem (coherent : schema.Coherent)
    (silent : "x" ∉ schema.names) : ¬schema.OutOfOrder done := by
  rintro ⟨part, isPart, _, free, _⟩
  exact silent ((coherent.of_mem_parts isPart).2 free)

/-! ## One binding -/

theorem length_names (schema : Schema) : schema.names.length = schema.arity :=
  List.length_map _

/-- The free variable of an inclusion is the last parameter if its sets are bound. -/
theorem Coherent.arity_eq_one_iff {name : String} {slots : List Slot}
    (coherent : (elementary name slots .subset).Coherent)
    (free : "x" ∈ (elementary name slots .subset).names) :
    (elementary name slots .subset).arity = 1 ↔ ¬(elementary name slots .subset).Awaits [] := by
  have distinct := coherent.distinct
  have declared : (elementary name slots .subset).names ⊆ ["x", "A", "B"] := by
    have layout := coherent.2.2 _ rfl
    have within : Slot.remaining slots ⊆ slots.map Slot.declaration :=
      List.map_subset _ (List.filter_subset_self slots)
    exact List.map_subset Prod.fst (layout ▸ within)
  rw [← length_names]
  constructor
  · rintro single ⟨_, _, set, isSet, inNames, _⟩
    obtain ⟨only, isOnly⟩ := List.length_eq_one_iff.mp single
    rw [isOnly, List.mem_singleton] at free inNames
    subst free
    subst inNames
    simp at isSet
  · intro allBound
    have single : (elementary name slots .subset).names.Perm ["x"] := by
      refine (List.perm_ext_iff_of_nodup distinct (List.nodup_singleton _)).mpr fun other => ?_
      rw [List.mem_singleton]
      refine ⟨fun inNames => ?_, fun isVariable => isVariable ▸ free⟩
      by_contra different
      refine allBound ⟨rfl, free, other, ?_, inNames, List.not_mem_nil⟩
      exact (List.mem_cons.mp (declared inNames)).resolve_left different
    exact single.length_eq

theorem check_of_mem_remaining (distinct : schema.names.Nodup)
    (declared : (parameter, value.kind) ∈ schema.remaining) :
    schema.check parameter value =
      if schema.isInclusion = true ∧ parameter = "x" ∧ schema.arity ≠ 1 then
        .error (.outOfOrderBinding schema parameter) else .ok () := by
  have isSlot := lookup_of_mem distinct declared
  rw [lookup_remaining] at isSlot
  obtain ⟨slot, isFree, sameKind⟩ := Option.map_eq_some_iff.mp isSlot
  unfold check
  rw [isFree]
  cases schema with
  | elementary name slots form => cases form <;> simp [sameKind, isInclusion]
  | _ => simp [sameKind, isInclusion]

/-- The answer to a binding: a new schema unless an inclusion waits for its sets. -/
inductive Answers (blocked : Prop) : Except Fault Schema → Prop
  | accepted {bound : Schema} : ¬blocked → Answers blocked (.ok bound)
  | refused {part : Schema} : blocked → part.isInclusion = true →
      Answers blocked (.error (.outOfOrderBinding part "x"))

theorem Answers.seq {blocked blocked' : Prop} {answer : Except Fault Schema}
    {next : Schema → Except Fault Schema} (first : Answers blocked answer)
    (second : ∀ bound, Answers blocked' (next bound)) :
    Answers (blocked ∨ blocked') (answer >>= next) := by
  cases first with
  | @accepted bound inOrder =>
      have same : (blocked ∨ blocked') = blocked' := propext (or_iff_right inOrder)
      rw [same]
      exact second bound
  | refused isBlocked inclusion => exact .refused (.inl isBlocked) inclusion

theorem Answers.map {blocked : Prop} {answer : Except Fault Schema}
    (answers : Answers blocked answer) (build : Schema → Schema) :
    Answers blocked (answer >>= fun bound => return build bound) := by
  cases answers with
  | accepted inOrder => exact .accepted inOrder
  | refused isBlocked inclusion => exact .refused isBlocked inclusion

theorem Answers.bindPart (coherent : schema.Coherent)
    (answers : (parameter, value.kind) ∈ schema.remaining →
      Answers (parameter = "x" ∧ schema.OutOfOrder []) (schema.bind parameter value))
    (kinds : ∀ kind, (parameter, kind) ∈ schema.remaining → kind = value.kind) :
    Answers (parameter = "x" ∧ schema.OutOfOrder []) (schema.bindPart parameter value) := by
  by_cases declares : schema.declares parameter = true
  · obtain ⟨⟨name, kind⟩, declared, rfl⟩ := List.mem_map.mp (declares_iff_mem_names.mp declares)
    rw [bindPart_of_declares declares]
    generalize isAnswer : schema.bind name value = answer at answers
    cases answers (kinds kind declared ▸ declared) with
    | @accepted bound inOrder =>
        by_cases closed : bound.arity = 0
        · obtain ⟨p, isStatement, _⟩ := (coherent.bind isAnswer).exists_statement closed
          change Answers _ bound.settle
          rw [settle, if_pos closed, isStatement]
          exact .accepted inOrder
        · change Answers _ bound.settle
          rw [settle_of_arity_ne_zero closed]
          exact .accepted inOrder
    | refused blocked inclusion => exact .refused blocked inclusion
  · rw [Bool.not_eq_true] at declares
    rw [bindPart_of_not_declares declares]
    refine .accepted ?_
    rintro ⟨rfl, outOfOrder⟩
    refine coherent.not_outOfOrder_of_not_mem (fun free => ?_) outOfOrder
    rw [declares_iff_mem_names.mpr free] at declares
    cases declares

theorem KindsAgree.mono (agree : schema.KindsAgree) (within : part.parts ⊆ schema.parts) :
    part.KindsAgree :=
  fun first isFirst second isSecond => agree first (within isFirst) second (within isSecond)

/-- The answer of a composite from that of one of its parts. -/
theorem KindsAgree.answers_bindPart (agree : schema.KindsAgree)
    (declared : (parameter, value.kind) ∈ schema.remaining) (within : part.parts ⊆ schema.parts)
    (coherent : part.Coherent)
    (answers : part.KindsAgree → (parameter, value.kind) ∈ part.remaining →
      Answers (parameter = "x" ∧ part.OutOfOrder []) (part.bind parameter value)) :
    Answers (parameter = "x" ∧ part.OutOfOrder []) (part.bindPart parameter value) :=
  .bindPart coherent (answers (agree.mono within)) fun kind isDeclared =>
    agree part (within part.self_mem_parts) schema schema.self_mem_parts parameter kind value.kind
      isDeclared declared

/-- A binding with a value of the declared kind is refused for the order only. -/
theorem Coherent.answers_bind (coherent : schema.Coherent) (agree : schema.KindsAgree)
    (declared : (parameter, value.kind) ∈ schema.remaining) :
    Answers (parameter = "x" ∧ schema.OutOfOrder []) (schema.bind parameter value) := by
  induction schema with
  | settled p => cases declared
  | elementary name slots form =>
      have free : parameter ∈ (elementary name slots form).names := List.mem_map_of_mem declared
      rw [outOfOrder_elementary, Schema.bind, check_of_mem_remaining coherent.distinct declared]
      by_cases blocked : (elementary name slots form).isInclusion = true ∧ parameter = "x" ∧
          (elementary name slots form).arity ≠ 1
      · rw [if_pos blocked]
        rcases blocked with ⟨inclusion, rfl, several⟩
        cases of_decide_eq_true inclusion
        have awaits := not_imp_comm.mp (coherent.arity_eq_one_iff free).mpr several
        exact .refused ⟨rfl, awaits⟩ rfl
      · rw [if_neg blocked]
        refine .accepted ?_
        rintro ⟨rfl, awaits⟩
        cases of_decide_eq_true awaits.1
        exact blocked ⟨rfl, rfl, fun single => (coherent.arity_eq_one_iff free).mp single awaits⟩
  | binary name slots left connective right leftInduction rightInduction =>
      have checks := check_of_mem_remaining coherent.distinct declared
      rcases coherent with ⟨ofLeft, ofRight, _⟩
      have fromLeft := agree.answers_bindPart declared (by simp [parts]) ofLeft
        (leftInduction ofLeft)
      have fromRight := agree.answers_bindPart declared (by simp [parts]) ofRight
        (rightInduction ofRight)
      rw [Schema.bind, checks, if_neg (fun blocked => Bool.false_ne_true blocked.1),
        outOfOrder_binary, and_or_left]
      exact fromLeft.seq fun left' => fromRight.map
        (binary name (Slot.fill parameter value slots) left' connective)
  | quantified name slots quantifier inner induction =>
      have checks := check_of_mem_remaining coherent.distinct declared
      rcases coherent with ⟨ofInner, _⟩
      have fromInner := agree.answers_bindPart declared (by simp [parts]) ofInner
        (induction ofInner)
      rw [Schema.bind, checks, if_neg (fun blocked => Bool.false_ne_true blocked.1),
        outOfOrder_quantified]
      exact fromInner.map (quantified name (Slot.fill parameter value slots) quantifier)

/-! ## Several bindings -/

theorem KindsAgree.bind (agree : schema.KindsAgree)
    (ok : schema.bind parameter value = .ok bound) : bound.KindsAgree := by
  intro first isFirst second isSecond name kind kind' inFirst inSecond
  obtain ⟨original, isOriginal, narrower, _⟩ := covers_of_bind ok first isFirst
  obtain ⟨original', isOriginal', narrower', _⟩ := covers_of_bind ok second isSecond
  exact agree original isOriginal original' isOriginal' name kind kind' (narrower inFirst)
    (narrower' inSecond)

theorem kindsAgree_of_subset {declared : List (String × ArgumentKind)}
    (distinct : (declared.map Prod.fst).Nodup)
    (within : ∀ part ∈ schema.parts, part.remaining ⊆ declared) : schema.KindsAgree := by
  intro first isFirst second isSecond name kind kind' inFirst inSecond
  have isKind := lookup_of_mem distinct (within first isFirst inFirst)
  have isKind' := lookup_of_mem distinct (within second isSecond inSecond)
  exact Option.some.inj (isKind.symm.trans isKind')

theorem Coherent.mem_remaining_of_bind {entry : String × ArgumentKind} (coherent : schema.Coherent)
    (ok : schema.bind parameter value = .ok bound) :
    entry ∈ bound.remaining ↔ entry ∈ schema.remaining ∧ entry.1 ≠ parameter := by
  rw [remaining_of_bind ok, eraseP_eq_filter coherent.distinct, List.mem_filter, bne_iff_ne]

theorem Coherent.mem_names_of_bind {name : String} (coherent : schema.Coherent)
    (ok : schema.bind parameter value = .ok bound) :
    name ∈ bound.names ↔ name ∈ schema.names ∧ name ≠ parameter := by
  simp only [names, List.mem_map, coherent.mem_remaining_of_bind ok]
  constructor
  · rintro ⟨entry, ⟨member, different⟩, rfl⟩
    exact ⟨⟨entry, member, rfl⟩, different⟩
  · rintro ⟨⟨entry, member, rfl⟩, different⟩
    exact ⟨entry, ⟨member, different⟩, rfl⟩

theorem Coherent.outOfOrder_of_not_mem (coherent : schema.Coherent)
    (silent : parameter ∉ schema.names) :
    schema.OutOfOrder done ↔ schema.OutOfOrder (parameter :: done) := by
  constructor
  · rintro ⟨part, isPart, inclusion, free, set, isSet, inNames, isLeft⟩
    have different : set ≠ parameter :=
      fun same => silent (same ▸ (coherent.of_mem_parts isPart).2 inNames)
    exact ⟨part, isPart, inclusion, free, set, isSet, inNames,
      List.not_mem_cons_of_ne_of_not_mem different isLeft⟩
  · rintro ⟨part, isPart, inclusion, free, set, isSet, inNames, isLeft⟩
    exact ⟨part, isPart, inclusion, free, set, isSet, inNames,
      List.not_mem_of_not_mem_cons isLeft⟩

theorem Coherent.outOfOrder_of_partStep (coherent : schema.Coherent)
    (step : PartStep parameter value (fun schema bound => schema.Coherent →
      (bound.OutOfOrder done ↔ schema.OutOfOrder (parameter :: done))) schema part) :
    part.OutOfOrder done ↔ schema.OutOfOrder (parameter :: done) := by
  cases step with
  | untouched silent =>
      refine coherent.outOfOrder_of_not_mem fun free => ?_
      rw [declares_iff_mem_names.mpr free] at silent
      cases silent
  | unfinished _ _ kept _ => exact kept coherent
  -- A part is settled when nothing is left to bind, so it had been waiting for nothing else.
  | @settled bound p _ isBound kept closed _ =>
      have noneFree : "x" ∉ bound.names := by
        rw [names, arity_eq_zero_iff.mp closed]
        exact List.not_mem_nil
      rw [← kept coherent]
      exact iff_of_false (outOfOrder_settled p)
        ((coherent.bind isBound).not_outOfOrder_of_not_mem noneFree)

/-- What has been bound counts as given before. -/
theorem Coherent.outOfOrder_of_bind (coherent : schema.Coherent) (isSet : parameter ≠ "x")
    (ok : schema.bind parameter value = .ok bound) :
    bound.OutOfOrder done ↔ schema.OutOfOrder (parameter :: done) := by
  refine bind_induction (motive := fun schema bound => schema.Coherent →
    (bound.OutOfOrder done ↔ schema.OutOfOrder (parameter :: done))) ?_ ?_ ?_ ok coherent
  · intro name slots form checked coherent
    have isBound := bind_elementary_eq_ok_iff.mpr ⟨checked, rfl⟩
    rw [outOfOrder_elementary, outOfOrder_elementary]
    simp only [Awaits, isInclusion, coherent.mem_names_of_bind isBound, List.mem_cons, not_or,
      isSet.symm, ne_eq, not_false_eq_true, and_true, and_assoc]
  · rintro name slots left left' connective right right' _ leftStep rightStep ⟨ofLeft, ofRight, _⟩
    rw [outOfOrder_binary, outOfOrder_binary, ofLeft.outOfOrder_of_partStep leftStep,
      ofRight.outOfOrder_of_partStep rightStep]
  · rintro name slots quantifier inner inner' _ step ⟨ofInner, _⟩
    rw [outOfOrder_quantified, outOfOrder_quantified, ofInner.outOfOrder_of_partStep step]

theorem breaksOrder_nil : ¬schema.BreaksOrder [] := by
  rintro ⟨earlier, value, later, isSplit, _⟩
  cases earlier <;> cases isSplit

theorem breaksOrder_of_outOfOrder {bindings : List (String × Argument)}
    (outOfOrder : schema.OutOfOrder []) : schema.BreaksOrder (("x", value) :: bindings) :=
  ⟨[], value, bindings, rfl, outOfOrder⟩

/-- After an accepted binding it is left to the others to break the order. -/
theorem Coherent.breaksOrder_cons {bindings : List (String × Argument)}
    (coherent : schema.Coherent) (ok : schema.bind parameter value = .ok bound)
    (inOrder : ¬(parameter = "x" ∧ schema.OutOfOrder []))
    (isNew : parameter ∉ bindings.map Prod.fst) :
    bound.BreaksOrder bindings ↔ schema.BreaksOrder ((parameter, value) :: bindings) := by
  constructor
  · rintro ⟨earlier, last, later, rfl, outOfOrder⟩
    have isSet : parameter ≠ "x" := by
      rintro rfl
      simp at isNew
    exact ⟨(parameter, value) :: earlier, last, later, rfl,
      (coherent.outOfOrder_of_bind isSet ok).mp outOfOrder⟩
  · rintro ⟨earlier, last, later, isSplit, outOfOrder⟩
    cases earlier with
    | nil =>
        cases isSplit
        exact absurd ⟨rfl, outOfOrder⟩ inOrder
    | cons binding earlier =>
        cases isSplit
        have isSet : parameter ≠ "x" := by
          rintro rfl
          simp at isNew
        exact ⟨earlier, last, later, rfl, (coherent.outOfOrder_of_bind isSet ok).mpr outOfOrder⟩

/-- Bindings with values of the declared kinds are refused for the order only. -/
theorem Coherent.answers_bindAll {bindings : List (String × Argument)}
    (coherent : schema.Coherent) (agree : schema.KindsAgree)
    (distinct : (bindings.map Prod.fst).Nodup)
    (declared : ∀ binding ∈ bindings, (binding.1, binding.2.kind) ∈ schema.remaining) :
    Answers (schema.BreaksOrder bindings) (schema.bindAll bindings) := by
  induction bindings generalizing schema with
  | nil => exact .accepted breaksOrder_nil
  | cons binding bindings induction =>
      rcases binding with ⟨parameter, value⟩
      obtain ⟨isNew, distinct⟩ := List.nodup_cons.mp distinct
      obtain ⟨isDeclared, declared⟩ := List.forall_mem_cons.mp declared
      have step := coherent.answers_bind agree isDeclared
      rw [Schema.bindAll]
      generalize isAnswer : schema.bind parameter value = answer at step
      cases step with
      | @accepted bound inOrder =>
          rw [← coherent.breaksOrder_cons isAnswer inOrder isNew]
          refine induction (coherent.bind isAnswer) (agree.bind isAnswer) distinct
            fun other member => ?_
          refine (coherent.mem_remaining_of_bind isAnswer).mpr ⟨declared other member, ?_⟩
          exact fun same => isNew (List.mem_map.mpr ⟨other, member, same⟩)
      | refused blocked inclusion =>
          rcases blocked with ⟨rfl, outOfOrder⟩
          exact .refused (breaksOrder_of_outOfOrder outOfOrder) inclusion

theorem Coherent.arity_eq_zero_iff_subset {bindings : List (String × Argument)}
    (coherent : schema.Coherent) (ok : schema.bindAll bindings = .ok bound) :
    bound.arity = 0 ↔ schema.names ⊆ bindings.map Prod.fst := by
  have perm := names_perm_of_bindAll ok
  have apart := List.nodup_append.mp (perm.nodup_iff.mp coherent.distinct)
  rw [← length_names, List.length_eq_zero_iff]
  constructor
  · intro noneLeft name inNames
    have inBoth := perm.subset inNames
    rwa [noneLeft, List.append_nil] at inBoth
  · intro allBound
    refine List.eq_nil_iff_forall_not_mem.mpr fun name isLeft => ?_
    have inNames := perm.symm.subset (List.mem_append_right _ isLeft)
    exact apart.2.2 name (allBound inNames) name isLeft rfl

end Schema

/-! ## Applications -/

/-- Bindings with values of the declared kinds are refused if and only if they break the
order. Otherwise they lead to an unfinished schema as long as a parameter is left, and to
the proposition, asserted on demand, if none is. -/
theorem Kernel.applySchema_by_order {schema : Schema} {bindings : Bindings}
    (constructed : schema.Constructed) (agree : schema.KindsAgree)
    (distinct : (bindings.present.map Prod.fst).Nodup)
    (declared : ∀ binding ∈ bindings.present, (binding.1, binding.2.kind) ∈ schema.remaining)
    (assert : Bool) (store : Store) :
    (schema.BreaksOrder bindings.present → ∃ part, part.isInclusion = true ∧
      (outcome (applySchema schema bindings assert) store).1 =
        .error (.outOfOrderBinding part "x")) ∧
    (¬schema.BreaksOrder bindings.present →
      ((¬schema.names ⊆ bindings.present.map Prod.fst) → ∃ bound,
        (outcome (applySchema schema bindings assert) store).1 = .ok (.unfinished bound)) ∧
      (schema.names ⊆ bindings.present.map Prod.fst → ∃ p,
        (outcome (applySchema schema bindings assert) store).1 =
          .ok (.concluded assert store.certified p))) := by
  have answers := constructed.coherent.answers_bindAll agree distinct declared
  rw [outcome_applySchema]
  generalize isAnswer : schema.bindAll bindings.present = answer at answers
  cases answers with
  | @accepted bound inOrder =>
      have closed := constructed.coherent.arity_eq_zero_iff_subset isAnswer
      refine ⟨fun breaksOrder => absurd breaksOrder inOrder, fun _ => ⟨?_, ?_⟩⟩
      · intro left
        exact ⟨bound, if_neg (mt closed.mp left)⟩
      · intro all
        have coherent := constructed.coherent.bindAll isAnswer
        obtain ⟨p, isStatement, _⟩ := coherent.exists_statement (closed.mpr all)
        refine ⟨p, (if_pos (closed.mpr all)).trans ?_⟩
        rw [isStatement]
        rfl
  | refused breaksOrder inclusion =>
      exact ⟨fun _ => ⟨_, inclusion, rfl⟩, fun inOrder => absurd breaksOrder inOrder⟩

namespace Schema.Sample

/-- The variable is bound before the second set. -/
def variableEarly : Bindings :=
  [("A", some (.set smaller)), ("x", some (.object element)), ("B", some (.set larger))]

theorem constructed_included : included.Constructed :=
  .combine "both" .and (.subset "sub") (.membership "mem")

theorem kindsAgree_included : included.KindsAgree :=
  kindsAgree_of_subset (by decide : (included.remaining.map Prod.fst).Nodup) (by decide)

theorem breaksOrder_variableEarly : included.BreaksOrder variableEarly.present :=
  ⟨[("A", .set smaller)], .object element, [("B", .set larger)], rfl, subset "sub",
    List.mem_cons_of_mem _ List.mem_cons_self, rfl, by decide, "B", by decide, by decide,
    by decide⟩

end Schema.Sample

theorem Kernel.applySchema_by_order_included :
    (∃ part, part.isInclusion = true ∧
      (outcome (applySchema Schema.Sample.included Schema.Sample.variableEarly true) .empty).1 =
        .error (.outOfOrderBinding part "x")) ∧
    ∃ p, (outcome (applySchema Schema.Sample.included Schema.Sample.setFirst true) .empty).1 =
      .ok (.concluded true Store.empty.certified p) := by
  have early : (Schema.Sample.variableEarly.present.map Prod.fst).Nodup := by decide
  have last : (Schema.Sample.setFirst.present.map Prod.fst).Nodup := by decide
  have ofEarly := applySchema_by_order Schema.Sample.constructed_included
    Schema.Sample.kindsAgree_included early (by decide) true .empty
  have ofLast := applySchema_by_order Schema.Sample.constructed_included
    Schema.Sample.kindsAgree_included last (by decide) true .empty
  have inOrder : ¬Schema.Sample.included.BreaksOrder Schema.Sample.setFirst.present := by
    intro breaksOrder
    obtain ⟨part, _, isError⟩ := ofLast.1 breaksOrder
    cases isError
  exact ⟨ofEarly.1 Schema.Sample.breaksOrder_variableEarly, (ofLast.2 inOrder).2 (by decide)⟩

end Deduction
