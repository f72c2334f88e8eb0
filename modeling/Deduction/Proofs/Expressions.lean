import Deduction.Proofs.Arithmetic

/-! # Symbolic expressions

The result of a step with a symbol is called after its operands, and no brackets are written
around them. So a result stands for the terms of the expression in their order, with the signs
in front of them. This is enough to tell values apart as long as nothing but a number or a
single symbol is taken away. -/

namespace Deduction

open Kernel (Operation)
open Numeral (read write)

/-! ## Sums and differences without brackets -/

/-- A first term and the terms that are added or taken away one after the other. -/
structure Chain where
  first : List Char
  rest : List (Operation × List Char)

namespace Chain

def single (term : List Char) : Chain :=
  ⟨term, []⟩

/-- Write one chain behind another. -/
def join (operation : Operation) (left right : Chain) : Chain :=
  ⟨left.first, left.rest ++ (operation, right.first) :: right.rest⟩

/-- The terms and signs as they are written. -/
def words (chain : Chain) : List (List Char) :=
  chain.first :: chain.rest.flatMap fun term => [term.1.symbol.toList, term.2]

def termValue (symbols : String → Rat) (term : List Char) : Rat :=
  (Numeral.readCharacters term).getD (symbols (String.ofList term))

/-- Add a term to the sum of those in front of it, or take it away. -/
def advance (symbols : String → Rat) (sum : Rat) (term : Operation × List Char) : Rat :=
  term.1.value sum (termValue symbols term.2)

/-- The value found when the chain is read from left to right. -/
def value (symbols : String → Rat) (chain : Chain) : Rat :=
  chain.rest.foldl (advance symbols) (termValue symbols chain.first)

variable {symbols : String → Rat}

theorem value_single (text : String) :
    (single text.toList).value symbols = (read text).getD (symbols text) := by
  simp [value, single, termValue, Numeral.read]

theorem words_join (operation : Operation) (left right : Chain) :
    (left.join operation right).words = left.words ++ operation.symbol.toList :: right.words := by
  simp [join, words]

theorem symbol_injective {first second : Operation}
    (same : first.symbol.toList = second.symbol.toList) : first = second := by
  cases first with
  | plus =>
      cases second with
      | plus => rfl
      | minus => cases same
  | minus =>
      cases second with
      | plus => cases same
      | minus => rfl

theorem words_injective {first second : Chain} (same : first.words = second.words) :
    first = second := by
  obtain ⟨a, as⟩ := first
  obtain ⟨b, bs⟩ := second
  obtain ⟨rfl, sameRest⟩ := List.cons.inj same
  refine congrArg (Chain.mk a) ?_
  dsimp only at sameRest
  clear same
  induction as generalizing bs with
  | nil =>
      cases bs with
      | nil => rfl
      | cons term bs => cases sameRest
  | cons term as induction =>
      cases bs with
      | nil => cases sameRest
      | cons other bs =>
          simp only [List.flatMap_cons, List.cons_append, List.nil_append, List.cons.injEq]
            at sameRest
          obtain ⟨sameSign, sameTerm, sameRest⟩ := sameRest
          rw [Prod.ext (symbol_injective sameSign) sameTerm, induction bs sameRest]

theorem foldl_advance_add (terms : List (Operation × List Char)) (start sum : Rat) :
    terms.foldl (advance symbols) (start + sum) = start + terms.foldl (advance symbols) sum := by
  induction terms generalizing sum with
  | nil => rfl
  | cons term terms induction =>
      have moved : advance symbols (start + sum) term = start + advance symbols sum term := by
        obtain ⟨operation, text⟩ := term
        cases operation with
        | plus => exact add_assoc _ _ _
        | minus => exact add_sub_assoc _ _ _
      rw [List.foldl_cons, List.foldl_cons, moved, induction]

/-- A chain that is added may be read by itself. -/
theorem value_join_plus (left right : Chain) :
    (left.join .plus right).value symbols = left.value symbols + right.value symbols := by
  rw [value, join, List.foldl_append, List.foldl_cons]
  exact foldl_advance_add right.rest (left.value symbols) (termValue symbols right.first)

theorem value_join_single (operation : Operation) (left : Chain) (term : List Char) :
    (left.join operation (single term)).value symbols =
      operation.value (left.value symbols) ((single term).value symbols) := by
  rw [value, join, List.foldl_append]
  rfl

end Chain

/-! ## Names of results -/

/-- A symbol is called by letters. -/
def Object.isSymbol (x : Object) : Bool :=
  !x.name.toList.isEmpty && x.name.toList.all Char.isAlpha

theorem Object.blank_not_mem_of_isSymbol {x : Object} (isSymbol : x.isSymbol = true) :
    ' ' ∉ x.name.toList := by
  intro isBlank
  cases List.all_eq_true.mp (Bool.and_eq_true_iff.mp isSymbol).2 ' ' isBlank

theorem Numeral.blank_not_mem_of_read {text : String} {q : Rat} (isRead : read text = some q) :
    ' ' ∉ text.toList := by
  intro isBlank
  rw [read_eq_none_of_mem isBlank rfl (by decide)] at isRead
  cases isRead

namespace Expression

/-- Every operand is a numeral or a symbol. -/
def isLegible : Expression → Bool
  | operand x => (read x.name).isSome || x.isSymbol
  | step _ _ left right => left.isLegible && right.isLegible

/-- The terms of the expression, with all brackets left out. A numeral or symbol is a term as it
is spelled. A sum or difference without symbols is one term, its value as it is written. -/
def unbracketed : Expression → Chain
  | operand x => .single x.name.toList
  | step operation store left right =>
      if (step operation store left right).isNumeric then
        .single (write ((step operation store left right).value fun _ => 0)).toList
      else
        left.unbracketed.join operation right.unbracketed

variable {e e' : Expression} {r r' : Object}

theorem read_of_symbolic (notNumeric : e.isNumeric = false) (ok : e.result = .ok r) :
    read r.name = none := by
  induction e generalizing r with
  | operand x =>
      cases ok
      exact Option.not_isSome_iff_eq_none.mp (Bool.eq_false_iff.mp notNumeric)
  | step operation store left right leftInduction rightInduction =>
      obtain ⟨x, y, set, isLeft, isRight, _, rfl⟩ := ok_of_step ok
      refine Operation.read_resultName_of_symbol ?_ operation
      rcases Bool.and_eq_false_iff.mp notNumeric with noLeft | noRight
      · exact .inl (leftInduction noLeft isLeft)
      · exact .inr (rightInduction noRight isRight)

theorem name_ne_empty (legible : e.isLegible = true) (ok : e.result = .ok r) : r.name ≠ "" := by
  cases e with
  | operand x =>
      cases ok
      intro isEmpty
      rw [isLegible, Object.isSymbol, isEmpty] at legible
      cases legible
  | step operation store left right =>
      obtain ⟨x, y, set, _, _, _, rfl⟩ := ok_of_step ok
      exact Operation.resultName_ne_empty operation x y

theorem splitOn_operand {x : Object} (legible : (operand x).isLegible = true) :
    x.name.toList.splitOn ' ' = [x.name.toList] := by
  refine List.splitOn_eq_singleton ?_
  rcases Bool.or_eq_true_iff.mp legible with isNumeral | isSymbol
  · obtain ⟨q, isRead⟩ := Option.isSome_iff_exists.mp isNumeral
    exact Numeral.blank_not_mem_of_read isRead
  · exact Object.blank_not_mem_of_isSymbol isSymbol

theorem name_of_numeric {operation : Operation} {store : Store} {left right : Expression}
    (isNumeric : (step operation store left right).isNumeric = true)
    (ok : (step operation store left right).result = .ok r) (symbols : String → Rat) :
    r.name = write ((step operation store left right).value symbols) := by
  obtain ⟨leftNumeric, rightNumeric⟩ := Bool.and_eq_true_iff.mp isNumeric
  obtain ⟨x, y, set, isLeft, isRight, _, rfl⟩ := ok_of_step ok
  rw [value_step]
  exact Operation.resultName_of_numerals (read_of_result leftNumeric isLeft symbols)
    (read_of_result rightNumeric isRight symbols) operation

theorem name_of_symbolic {operation : Operation} {store : Store} {left right : Expression}
    (legible : (step operation store left right).isLegible = true)
    (notNumeric : (step operation store left right).isNumeric = false)
    (ok : (step operation store left right).result = .ok r) :
    ∃ x y, left.result = .ok x ∧ right.result = .ok y ∧
      r.name.toList =
        x.name.toList ++ ' ' :: (operation.symbol.toList ++ ' ' :: y.name.toList) := by
  obtain ⟨leftLegible, rightLegible⟩ := Bool.and_eq_true_iff.mp legible
  obtain ⟨x, y, set, isLeft, isRight, _, rfl⟩ := ok_of_step ok
  refine ⟨x, y, isLeft, isRight, ?_⟩
  have isSymbolic : read x.name = none ∨ read y.name = none :=
    (Bool.and_eq_false_iff.mp notNumeric).imp (read_of_symbolic · isLeft)
      (read_of_symbolic · isRight)
  simp [Kernel.resultIn, Operation.resultName_of_symbol isSymbolic,
    Object.text_of_named (name_ne_empty leftLegible isLeft),
    Object.text_of_named (name_ne_empty rightLegible isRight)]

/-- The name of a result spells the terms and signs with blanks between them. -/
theorem splitOn_name (legible : e.isLegible = true) (ok : e.result = .ok r) :
    r.name.toList.splitOn ' ' = e.unbracketed.words := by
  induction e generalizing r with
  | operand x =>
      cases ok
      exact splitOn_operand legible
  | step operation store left right leftInduction rightInduction =>
      obtain ⟨leftLegible, rightLegible⟩ := Bool.and_eq_true_iff.mp legible
      -- The name of a numeric step keeps nothing of its operands, so the induction is not used.
      cases isNumeric : (step operation store left right).isNumeric with
      | true =>
          have isName := name_of_numeric isNumeric ok fun _ => 0
          rw [unbracketed, if_pos isNumeric, isName]
          exact List.splitOn_eq_singleton (Numeral.blank_not_mem_of_read (Numeral.read_write _))
      | false =>
          obtain ⟨x, y, isLeft, isRight, isName⟩ := name_of_symbolic legible isNumeric ok
          have oneSign : operation.symbol.toList.splitOn ' ' = [operation.symbol.toList] := by
            cases operation <;> decide
          rw [unbracketed, if_neg (Bool.eq_false_iff.mp isNumeric), Chain.words_join,
            ← leftInduction leftLegible isLeft, ← rightInduction rightLegible isRight, isName,
            List.splitOn_append_cons_self, List.splitOn_append_cons_self, oneSign]
          rfl

/-- Results are equal if the expressions are alike once all brackets are left out, and only
then. -/
theorem beq_iff_unbracketed (legible : e.isLegible = true) (legible' : e'.isLegible = true)
    (ok : e.result = .ok r) (ok' : e'.result = .ok r') :
    (r == r') = true ↔ e.unbracketed = e'.unbracketed := by
  rw [Object.beq_iff_name (name_ne_empty legible ok) (name_ne_empty legible' ok')]
  constructor
  · intro sameName
    apply Chain.words_injective
    rw [← splitOn_name legible ok, ← splitOn_name legible' ok', sameName]
  · intro same
    have sameWords : r.name.toList.splitOn ' ' = r'.name.toList.splitOn ' ' := by
      rw [splitOn_name legible ok, splitOn_name legible' ok', same]
    have sameName := congrArg [' '].intercalate sameWords
    rw [List.intercalate_splitOn, List.intercalate_splitOn] at sameName
    exact String.toList_inj.mp sameName

/-! ## Values -/

/-- The expression is written as one term. -/
def isSingle : Expression → Bool
  | operand _ => true
  | step operation store left right => (step operation store left right).isNumeric

/-- Nothing but single terms is taken away. -/
def needsNoBrackets : Expression → Bool
  | operand _ => true
  | step operation _ left right =>
      (operation == .plus || right.isSingle) && left.needsNoBrackets && right.needsNoBrackets

variable {symbols : String → Rat}

theorem unbracketed_of_isSingle (isSingle : e.isSingle = true) :
    ∃ term, e.unbracketed = .single term := by
  cases e with
  | operand x => exact ⟨_, rfl⟩
  | step operation store left right => exact ⟨_, if_pos isSingle⟩

theorem value_of_numeric (isNumeric : e.isNumeric = true) (symbols symbols' : String → Rat) :
    e.value symbols = e.value symbols' := by
  induction e with
  | operand x =>
      obtain ⟨q, isRead⟩ := Option.isSome_iff_exists.mp isNumeric
      simp [value, isRead]
  | step operation store left right leftInduction rightInduction =>
      obtain ⟨leftNumeric, rightNumeric⟩ := Bool.and_eq_true_iff.mp isNumeric
      rw [value_step, value_step, leftInduction leftNumeric, rightInduction rightNumeric]

theorem value_unbracketed_of_numeric {operation : Operation} {store : Store}
    {left right : Expression} (isNumeric : (step operation store left right).isNumeric = true) :
    (step operation store left right).unbracketed.value symbols =
      (step operation store left right).value symbols := by
  rw [unbracketed, if_pos isNumeric, value_of_numeric isNumeric symbols fun _ => 0]
  rw [Chain.value_single, Numeral.read_write, Option.getD_some]

/-- The value does not change when brackets are left out that are not needed. -/
theorem value_unbracketed (needsNone : e.needsNoBrackets = true) :
    e.unbracketed.value symbols = e.value symbols := by
  induction e with
  | operand x => exact Chain.value_single x.name
  | step operation store left right leftInduction rightInduction =>
      by_cases isNumeric : (step operation store left right).isNumeric = true
      · exact value_unbracketed_of_numeric isNumeric
      · simp only [needsNoBrackets, Bool.and_eq_true, Bool.or_eq_true, beq_iff_eq] at needsNone
        obtain ⟨⟨isPlus | isSingle, leftNone⟩, rightNone⟩ := needsNone
        · rw [unbracketed, if_neg isNumeric, isPlus, Chain.value_join_plus,
            leftInduction leftNone, rightInduction rightNone, value]
        · -- Behind a minus sign, any further term would change its sign.
          obtain ⟨term, isTerm⟩ := unbracketed_of_isSingle isSingle
          rw [unbracketed, if_neg isNumeric, isTerm, Chain.value_join_single, ← isTerm,
            leftInduction leftNone, rightInduction rightNone, value_step]

/-- Results stand for the terms and signs of their expressions. If nothing but a number or a
single symbol is taken away, then expressions with equal results have the same value, whatever
the symbols stand for. -/
theorem equal_results_agree (legible : e.isLegible = true) (legible' : e'.isLegible = true)
    (ok : e.result = .ok r) (ok' : e'.result = .ok r') :
    ((r == r') = true ↔ e.unbracketed = e'.unbracketed) ∧
    ((r == r') = true → e.needsNoBrackets = true → e'.needsNoBrackets = true →
      ∀ symbols, e.value symbols = e'.value symbols) := by
  have isUnbracketed := beq_iff_unbracketed legible legible' ok ok'
  refine ⟨isUnbracketed, fun equal needsNone needsNone' symbols => ?_⟩
  calc e.value symbols
      = e.unbracketed.value symbols := (value_unbracketed needsNone).symm
    _ = e'.unbracketed.value symbols := by rw [isUnbracketed.mp equal]
    _ = e'.value symbols := value_unbracketed needsNone'

/-! The sample has the symbols `x`, `y` and `z` among the reals. -/

namespace Sample

open Run.Sample

def named : Run :=
  ((counted.after (.objectIn "x" highest)).after (.objectIn "y" highest)).after
    (.objectIn "z" highest)

def x : Object := ⟨1, "x", some 3, []⟩

def y : Object := ⟨2, "y", some 3, []⟩

def z : Object := ⟨3, "z", some 3, []⟩

/-- A symbol, followed by two steps from left to right: `(x ∘ y) - z`. -/
def inOrder (operation : Operation) : Expression :=
  .step .minus named.store
    (.step operation named.store (.operand x) (.operand y)) (.operand z)

/-- A symbol, followed by a difference in brackets: `x ∘ (y - z)`. -/
def inBrackets (operation : Operation) : Expression :=
  .step operation named.store (.operand x)
    (.step .minus named.store (.operand y) (.operand z))

theorem reachable_named : named.Reachable := by
  refine .after (.after (.after reachable_counted (List.forall_mem_singleton.mpr ?_))
    (List.forall_mem_singleton.mpr ?_)) (List.forall_mem_singleton.mpr ?_)
  · exact .result (List.mem_of_getElem? (i := 0) rfl) (List.mem_of_getElem? (i := 2) rfl)
  · exact .result (List.mem_of_getElem? (i := 1) rfl) (List.mem_of_getElem? (i := 2) rfl)
  · exact .result (List.mem_of_getElem? (i := 2) rfl) (List.mem_of_getElem? (i := 2) rfl)

end Sample

open Sample in
theorem equal_results_agree_plus :
    ∃ r r', (inOrder .plus).result = .ok r ∧ (inBrackets .plus).result = .ok r' ∧
      (r == r') = true ∧ (inOrder .plus).unbracketed = (inBrackets .plus).unbracketed ∧
      ∀ symbols, (inOrder .plus).value symbols = (inBrackets .plus).value symbols := by
  have legible : (inOrder .plus).isLegible = true := by decide +kernel
  have legible' : (inBrackets .plus).isLegible = true := by decide +kernel
  obtain ⟨isUnbracketed, agree⟩ := equal_results_agree legible legible' rfl rfl
  have equal := isUnbracketed.mpr rfl
  exact ⟨_, _, rfl, rfl, equal, isUnbracketed.mp equal, agree equal rfl rfl⟩

open Run.Sample (highest) in
open Sample in
/-- Without its brackets, `x - (y - z)` reads as `(x - y) - z`, which has another value. -/
theorem equal_results_differ :
    named.Reachable ∧ (∀ symbol ∈ [x, y, z], symbol.isSymbol = true ∧
      named.Holds (.object symbol) ∧ named.store.owner symbol = some highest) ∧
    ∃ r r', (inOrder .minus).result = .ok r ∧ (inBrackets .minus).result = .ok r' ∧
      (r == r') = true ∧
      (inOrder .minus).value (fun _ => 1) ≠ (inBrackets .minus).value (fun _ => 1) := by
  refine ⟨reachable_named, ?_, _, _, rfl, rfl, rfl, by decide +kernel⟩
  simp only [List.forall_mem_cons]
  refine ⟨⟨rfl, ?_, rfl⟩, ⟨rfl, ?_, rfl⟩, ⟨rfl, ?_, rfl⟩, fun _ member => nomatch member⟩
  · exact .result (List.mem_of_getElem? (i := 2) rfl) List.mem_cons_self
  · exact .result (List.mem_of_getElem? (i := 1) rfl) List.mem_cons_self
  · exact .result (List.mem_of_getElem? (i := 0) rfl) List.mem_cons_self

end Expression

end Deduction
