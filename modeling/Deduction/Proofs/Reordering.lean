import Deduction.Proofs.Binding
import Mathlib.Data.List.Nodup

/-! # Reordering bindings

Values may be bound in any order. Two orders that both succeed may be connected only
through orders that are refused, because the variable of an inclusion is bound last;
so what binding makes of a schema is first described apart from all refusals. -/

namespace Deduction

namespace Schema

variable {parameter other : String} {value value' : Argument} {schema bound part : Schema}

/-! ## Binding without refusals -/

/-- The schema as a part: its proposition if nothing is left to bind. -/
def closed (schema : Schema) : Schema :=
  match schema.settle with
  | .ok part => part
  | .error _ => schema

/-- A part that declares the parameter becomes the filled one, closed if nothing is left
to bind. -/
def replace (part : Schema) (parameter : String) (filled : Schema) : Schema :=
  if part.declares parameter then filled.closed else part

/-- What binding makes of a schema unless it is refused. -/
def fill (parameter : String) (value : Argument) : Schema → Schema
  | settled p => settled p
  | elementary name slots form => elementary name (Slot.fill parameter value slots) form
  | binary name slots left connective right =>
      binary name (Slot.fill parameter value slots)
        (left.replace parameter (left.fill parameter value)) connective
        (right.replace parameter (right.fill parameter value))
  | quantified name slots quantifier inner =>
      quantified name (Slot.fill parameter value slots) quantifier
        (inner.replace parameter (inner.fill parameter value))

theorem closed_of_arity_ne_zero (free : schema.arity ≠ 0) : schema.closed = schema := by
  rw [closed, settle_of_arity_ne_zero free]

theorem replace_of_partStep
    (step : PartStep parameter value (fun schema bound => schema.fill parameter value = bound)
      schema part) :
    schema.replace parameter (schema.fill parameter value) = part := by
  cases step with
  | untouched silent => simp [replace, silent]
  | unfinished declares _ filled free =>
      rw [replace, if_pos declares, filled, closed_of_arity_ne_zero free]
  | settled declares _ filled free isStatement =>
      rw [replace, if_pos declares, filled, closed, settle, if_pos free, isStatement]
      rfl

theorem fill_of_bind (ok : schema.bind parameter value = .ok bound) :
    schema.fill parameter value = bound := by
  refine bind_induction (motive := fun schema bound => schema.fill parameter value = bound)
    ?_ ?_ ?_ ok
  · intro name slots form _
    rfl
  · intro name slots left left' connective right right' _ leftStep rightStep
    rw [fill, replace_of_partStep leftStep, replace_of_partStep rightStep]
  · intro name slots quantifier inner inner' _ step
    rw [fill, replace_of_partStep step]

theorem fill_of_bindAll {bindings : List (String × Argument)}
    (ok : schema.bindAll bindings = .ok bound) :
    bindings.foldl (fun schema binding => schema.fill binding.1 binding.2) schema = bound := by
  induction bindings generalizing schema with
  | nil =>
      cases ok
      rfl
  | cons binding bindings induction =>
      obtain ⟨next, isNext, ok⟩ := bindAll_cons_eq_ok_iff.mp ok
      rw [List.foldl_cons, fill_of_bind isNext, induction ok]

/-! ## Different parameters commute -/

theorem slots_fill (schema : Schema) :
    (schema.fill parameter value).slots = Slot.fill parameter value schema.slots := by
  cases schema <;> rfl

theorem declares_fill_of_ne (different : other ≠ parameter) :
    (schema.fill parameter value).declares other = schema.declares other := by
  rw [declares_iff_lookup, declares_iff_lookup, remaining_eq, slots_fill, Slot.remaining_fill,
    lookup_eraseP_of_ne different, remaining_eq]

theorem declares_closed : schema.closed.declares parameter = schema.declares parameter := by
  by_cases free : schema.arity = 0
  · have silent : schema.declares parameter = false := by
      rw [Bool.eq_false_iff]
      exact fun declares => arity_pos_of_declares declares free
    rw [closed, settle, if_pos free]
    cases schema.statement with
    | error fault => rfl
    | ok p => exact silent.symm
  · rw [closed_of_arity_ne_zero free]

theorem replace_comm (different : other ≠ parameter)
    (commutes : (part.fill parameter value).fill other value' =
      (part.fill other value').fill parameter value) :
    (part.replace parameter (part.fill parameter value)).replace other
        ((part.replace parameter (part.fill parameter value)).fill other value') =
      (part.replace other (part.fill other value')).replace parameter
        ((part.replace other (part.fill other value')).fill parameter value) := by
  -- A part that declares the other parameter as well is not closed by the first binding.
  have keeps : ∀ {first second : String} {v : Argument}, second ≠ first →
      part.declares second = true → (part.fill first v).closed = part.fill first v := by
    intro first second v apart declares
    apply closed_of_arity_ne_zero
    exact arity_pos_of_declares ((declares_fill_of_ne apart).trans declares)
  cases declares : part.declares parameter <;> cases declaresOther : part.declares other
  · simp [replace, declares, declaresOther]
  · simp [replace, declares, declaresOther, declares_closed, declares_fill_of_ne different.symm]
  · simp [replace, declares, declaresOther, declares_closed, declares_fill_of_ne different]
  · simp [replace, declares, declaresOther, keeps different declaresOther,
      keeps different.symm declares, declares_fill_of_ne different,
      declares_fill_of_ne different.symm, commutes]

theorem fill_comm (different : other ≠ parameter) (schema : Schema) :
    (schema.fill parameter value).fill other value' =
      (schema.fill other value').fill parameter value := by
  induction schema with
  | settled p => rfl
  | elementary name slots form => simp [fill, Slot.fill_comm different]
  | binary name slots left connective right leftInduction rightInduction =>
      simp only [fill, Slot.fill_comm different, replace_comm different leftInduction,
        replace_comm different rightInduction]
  | quantified name slots quantifier inner induction =>
      simp only [fill, Slot.fill_comm different, replace_comm different induction]

theorem eq_of_bindAll_perm {bindings bindings' : List (String × Argument)}
    (perm : bindings.Perm bindings') (distinct : (bindings.map Prod.fst).Nodup)
    {result result' : Schema} (ok : schema.bindAll bindings = .ok result)
    (ok' : schema.bindAll bindings' = .ok result') : result = result' := by
  rw [← fill_of_bindAll ok, ← fill_of_bindAll ok']
  apply perm.foldl_eq'
  intro first firstMember second secondMember schema
  by_cases same : first.1 = second.1
  · rw [List.inj_on_of_nodup_map distinct firstMember secondMember same]
  · exact fill_comm (Ne.symm same) schema

/-! ## Accepted orders

Without inclusions, whether a value is accepted depends on the parameter alone. -/

/-- No inclusion occurs at any level. -/
def Unordered (schema : Schema) : Prop :=
  ∀ part ∈ schema.parts, part.isInclusion = false

theorem Unordered.bind (unordered : schema.Unordered)
    (ok : schema.bind parameter value = .ok bound) : bound.Unordered := by
  intro part member
  obtain ⟨original, isPart, _, inclusion⟩ := covers_of_bind ok part member
  rw [Bool.eq_false_iff]
  intro isInclusion
  have noInclusion := unordered original isPart
  rw [inclusion isInclusion] at noInclusion
  cases noInclusion

theorem check_iff_of_bind_of_ne (ok : schema.bind parameter value = .ok bound)
    (different : other ≠ parameter) (unordered : schema.isInclusion = false) :
    bound.check other value' = .ok () ↔ schema.check other value' = .ok () := by
  rw [check_eq_ok_iff, check_eq_ok_iff, isInclusion_of_bind ok, remaining_of_bind ok,
    lookup_eraseP_of_ne different, unordered]
  simp

theorem bindPart_of_bind (declares : schema.declares parameter = true)
    (isBound : schema.bind parameter value = .ok bound) :
    schema.bindPart parameter value = bound.settle := by
  rw [bindPart_of_declares declares, isBound]
  rfl

theorem declares_of_bindPart_of_ne (different : other ≠ parameter)
    (ok : schema.bindPart parameter value = .ok part) :
    part.declares other = schema.declares other :=
  (partStep_of_bindPart (motive := fun _ _ => True) (fun _ => True.intro) ok).declares_of_ne
    different

/-- Two bindings of different parameters that are accepted in one order are accepted in
the other order, with the same result. -/
def Swaps (parameter : String) (value : Argument) (other : String) (value' : Argument)
    (schema : Schema) : Prop :=
  ∀ bound result, schema.bind parameter value = .ok bound → bound.bind other value' = .ok result →
    ∃ swapped, schema.bind other value' = .ok swapped ∧ swapped.bind parameter value = .ok result

theorem Swaps.bindPart (swaps : schema.Swaps parameter value other value')
    (different : other ≠ parameter) {last : Schema}
    (first : schema.bindPart parameter value = .ok part)
    (second : part.bindPart other value' = .ok last) :
    ∃ swapped, schema.bindPart other value' = .ok swapped ∧
      swapped.bindPart parameter value = .ok last := by
  have declaresPart := declares_of_bindPart_of_ne different first
  cases declares : schema.declares parameter with
  | false =>
      rw [bindPart_of_not_declares declares] at first
      cases first
      have declaresLast := declares_of_bindPart_of_ne different.symm second
      exact ⟨last, second, bindPart_of_not_declares (declaresLast.trans declares)⟩
  | true =>
      cases declaresOther : schema.declares other with
      | false =>
          rw [bindPart_of_not_declares (declaresPart.trans declaresOther)] at second
          cases second
          exact ⟨schema, bindPart_of_not_declares declaresOther, first⟩
      | true =>
          -- The part is not settled before both parameters are bound.
          rw [bindPart_of_declares declares] at first
          obtain ⟨bound, isBound, settles⟩ := Inference.ok_of_bind first
          have free := arity_pos_of_declares
            ((declares_of_bind_of_ne different isBound).trans declaresOther)
          rw [settle_of_arity_ne_zero free] at settles
          cases settles
          rw [bindPart_of_declares (declaresPart.trans declaresOther)] at second
          obtain ⟨result, isResult, settles⟩ := Inference.ok_of_bind second
          obtain ⟨swapped, isSwapped, isResult'⟩ := swaps part result isBound isResult
          have declares' := (declares_of_bind_of_ne different.symm isSwapped).trans declares
          refine ⟨swapped, ?_, ?_⟩
          · rw [bindPart_of_bind declaresOther isSwapped,
              settle_of_arity_ne_zero (arity_pos_of_declares declares')]
          · rw [bindPart_of_bind declares' isResult', settles]

theorem Unordered.swaps (different : other ≠ parameter) (unordered : schema.Unordered) :
    schema.Swaps parameter value other value' := by
  induction schema with
  | settled p => exact fun bound result first => nomatch first
  | elementary name slots form =>
      intro bound result first second
      have noInclusion := unordered _ (self_mem_parts _)
      have checked := check_of_bind first
      have checkedOther := (check_iff_of_bind_of_ne first different noInclusion).mp
        (check_of_bind second)
      obtain ⟨_, rfl⟩ := bind_elementary_eq_ok_iff.mp first
      obtain ⟨_, rfl⟩ := bind_elementary_eq_ok_iff.mp second
      have swapped := bind_elementary_eq_ok_iff.mpr ⟨checkedOther, rfl⟩
      have checked' := (check_iff_of_bind_of_ne swapped different.symm noInclusion).mpr checked
      refine ⟨_, swapped, bind_elementary_eq_ok_iff.mpr ⟨checked', ?_⟩⟩
      rw [Slot.fill_comm different]
  | binary name slots left connective right leftInduction rightInduction =>
      intro bound result first second
      have noInclusion := unordered _ (self_mem_parts _)
      have checked := check_of_bind first
      have checkedOther := (check_iff_of_bind_of_ne first different noInclusion).mp
        (check_of_bind second)
      obtain ⟨_, left', right', leftBound, rightBound, rfl⟩ := bind_binary_eq_ok_iff.mp first
      obtain ⟨_, left'', right'', leftBound', rightBound', rfl⟩ := bind_binary_eq_ok_iff.mp second
      have leftSwaps := leftInduction fun part member =>
        unordered part (List.mem_cons_of_mem _ (List.mem_append_left _ member))
      have rightSwaps := rightInduction fun part member =>
        unordered part (List.mem_cons_of_mem _ (List.mem_append_right _ member))
      obtain ⟨leftSwapped, isLeft, isLeft'⟩ := leftSwaps.bindPart different leftBound leftBound'
      obtain ⟨rightSwapped, isRight, isRight'⟩ :=
        rightSwaps.bindPart different rightBound rightBound'
      have swapped := bind_binary_eq_ok_iff.mpr ⟨checkedOther, _, _, isLeft, isRight, rfl⟩
      have checked' := (check_iff_of_bind_of_ne swapped different.symm noInclusion).mpr checked
      refine ⟨_, swapped, bind_binary_eq_ok_iff.mpr ⟨checked', _, _, isLeft', isRight', ?_⟩⟩
      rw [Slot.fill_comm different]
  | quantified name slots quantifier inner induction =>
      intro bound result first second
      have noInclusion := unordered _ (self_mem_parts _)
      have checked := check_of_bind first
      have checkedOther := (check_iff_of_bind_of_ne first different noInclusion).mp
        (check_of_bind second)
      obtain ⟨_, inner', innerBound, rfl⟩ := bind_quantified_eq_ok_iff.mp first
      obtain ⟨_, inner'', innerBound', rfl⟩ := bind_quantified_eq_ok_iff.mp second
      have swaps := induction fun part member => unordered part (List.mem_cons_of_mem _ member)
      obtain ⟨innerSwapped, isInner, isInner'⟩ := swaps.bindPart different innerBound innerBound'
      have swapped := bind_quantified_eq_ok_iff.mpr ⟨checkedOther, _, isInner, rfl⟩
      have checked' := (check_iff_of_bind_of_ne swapped different.symm noInclusion).mpr checked
      refine ⟨_, swapped, bind_quantified_eq_ok_iff.mpr ⟨checked', _, isInner', ?_⟩⟩
      rw [Slot.fill_comm different]

/-- Without inclusions a list of bindings is accepted in any order if it is in one. -/
theorem Unordered.bindAll_perm {bindings bindings' : List (String × Argument)}
    (perm : bindings.Perm bindings') (distinct : (bindings.map Prod.fst).Nodup)
    (unordered : schema.Unordered) (ok : schema.bindAll bindings = .ok bound) :
    schema.bindAll bindings' = .ok bound := by
  induction perm generalizing schema with
  | nil => exact ok
  | cons binding _ induction =>
      obtain ⟨next, isNext, ok⟩ := bindAll_cons_eq_ok_iff.mp ok
      apply bindAll_cons_eq_ok_iff.mpr
      exact ⟨next, isNext, induction (List.nodup_cons.mp distinct).2 (unordered.bind isNext) ok⟩
  | swap binding other bindings =>
      have different : binding.1 ≠ other.1 := by
        intro same
        exact (List.nodup_cons.mp distinct).1 (same ▸ List.mem_cons_self)
      obtain ⟨next, isNext, ok⟩ := bindAll_cons_eq_ok_iff.mp ok
      obtain ⟨last, isLast, ok⟩ := bindAll_cons_eq_ok_iff.mp ok
      obtain ⟨swapped, isSwapped, isLast'⟩ := unordered.swaps different next last isNext isLast
      apply bindAll_cons_eq_ok_iff.mpr
      exact ⟨swapped, isSwapped, bindAll_cons_eq_ok_iff.mpr ⟨last, isLast', ok⟩⟩
  | trans perm _ induction induction' =>
      exact induction' ((perm.map Prod.fst).nodup_iff.mp distinct) unordered
        (induction distinct unordered ok)

end Schema

/-! ## Applications -/

/-- Reductions are alike if they are the same up to the numbers of the proofs. -/
inductive Reduction.Alike : Reduction → Reduction → Prop
  | unfinished (schema : Schema) : Alike (.unfinished schema) (.unfinished schema)
  | complete (statement : Proposition) : Alike (.complete statement) (.complete statement)
  | asserted {proof proof' : Proof} : proof.conclusion = proof'.conclusion →
      proof.rule = proof'.rule →
      proof.premises.map Proof.conclusion = proof'.premises.map Proof.conclusion →
      Alike (.asserted proof) (.asserted proof')

theorem Proof.postulated_alike (certified certified' : Nat) (p : Proposition) :
    Reduction.Alike (.asserted (.postulated certified p)) (.asserted (.postulated certified' p)) := by
  unfold postulated
  split <;> exact .asserted rfl rfl rfl

theorem Schema.alike_of_reduced {schema : Schema} {assert : Bool} {certified certified' : Nat}
    {reduction reduction' : Reduction} (ok : schema.reduced assert certified = .ok reduction)
    (ok' : schema.reduced assert certified' = .ok reduction') : reduction.Alike reduction' := by
  rcases reduced_cases ok with ⟨free, rfl⟩ | ⟨p, closed, isStatement, rfl⟩
  · rw [reduced, if_neg free] at ok'
    cases ok'
    exact .unfinished schema
  · rw [reduced, if_pos closed, isStatement] at ok'
    cases ok'
    cases assert with
    | false => exact .complete p
    | true => exact Proof.postulated_alike certified certified' p

theorem Schema.exists_reduced_iff {schema : Schema} {assert : Bool} {certified : Nat} :
    (∃ reduction, schema.reduced assert certified = .ok reduction) ↔
      (schema.arity = 0 → ∃ p, schema.statement = .ok p) := by
  unfold reduced
  by_cases closed : schema.arity = 0
  · simp only [closed, if_true, true_implies]
    cases schema.statement <;> simp [Except.map]
  · simp [closed]

/-- The order of bindings with different parameters does not matter. Whatever orders are
accepted lead to the same reduction, and without inclusions either all orders are
accepted or none. -/
theorem Kernel.applySchema_of_perm (schema : Schema) {bindings bindings' : Bindings}
    (perm : bindings.present.Perm bindings'.present)
    (distinct : (bindings.present.map Prod.fst).Nodup) (assert : Bool) (store store' : Store) :
    (∀ reduction reduction',
      (outcome (applySchema schema bindings assert) store).1 = .ok reduction →
      (outcome (applySchema schema bindings' assert) store').1 = .ok reduction' →
      reduction.Alike reduction' ∧
        (store.certified = store'.certified → reduction = reduction')) ∧
    (schema.Unordered →
      ((∃ reduction, (outcome (applySchema schema bindings assert) store).1 = .ok reduction) ↔
        ∃ reduction, (outcome (applySchema schema bindings' assert) store').1 = .ok reduction)) := by
  simp only [outcome_applySchema]
  constructor
  · intro reduction reduction' ok ok'
    obtain ⟨bound, isBound, reduces⟩ := Inference.ok_of_bind ok
    obtain ⟨bound', isBound', reduces'⟩ := Inference.ok_of_bind ok'
    rw [← Schema.eq_of_bindAll_perm perm distinct isBound isBound'] at reduces'
    refine ⟨Schema.alike_of_reduced reduces reduces', fun same => ?_⟩
    rw [same, reduces'] at reduces
    cases reduces
    rfl
  · intro unordered
    have accepted : ∀ {first second : List (String × Argument)} {certified certified' : Nat},
        first.Perm second → (first.map Prod.fst).Nodup →
        (∃ reduction, schema.bindAll first >>= Schema.reduced assert certified = .ok reduction) →
        ∃ reduction, schema.bindAll second >>= Schema.reduced assert certified' = .ok reduction := by
      rintro first second certified certified' perm distinct ⟨reduction, ok⟩
      obtain ⟨bound, isBound, reduces⟩ := Inference.ok_of_bind ok
      rw [unordered.bindAll_perm perm distinct isBound]
      exact Schema.exists_reduced_iff.mpr (Schema.exists_reduced_iff.mp ⟨reduction, reduces⟩)
    exact ⟨accepted perm distinct,
      accepted perm.symm ((perm.map Prod.fst).nodup_iff.mp distinct)⟩

theorem Kernel.applySchema_of_perm_included :
    ∃ reduction reduction',
      (outcome (applySchema Schema.Sample.included Schema.Sample.setLast true) .empty).1 =
        .ok reduction ∧
      (outcome (applySchema Schema.Sample.included Schema.Sample.setFirst true) .empty).1 =
        .ok reduction' ∧
      reduction.Alike reduction' := by
  have perm : Schema.Sample.setLast.present.Perm Schema.Sample.setFirst.present :=
    List.perm_append_singleton ("set_", Argument.set Schema.Sample.smaller) [_, _, _]
  have distinct : (Schema.Sample.setLast.present.map Prod.fst).Nodup := by decide
  exact ⟨_, _, rfl, rfl, ((applySchema_of_perm Schema.Sample.included perm distinct true .empty
    .empty).1 _ _ rfl rfl).1⟩

end Deduction
