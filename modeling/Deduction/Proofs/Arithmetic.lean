import Deduction.Proofs.Numerals
import Deduction.Proofs.Success

/-! # Arithmetic

The value of a sum or difference of numerals is written in lowest terms and found again when
the result is read. Nothing is lost on the way through the text, so the exact value of a
calculation with any number of steps can be read off the name of its result. -/

namespace Deduction

namespace Numeral

/-! ## The characters of numerals -/

/-- The characters that occur in integers besides digits. -/
def integerMarks : List Char := ['_', '+', '-']

/-- The characters that occur in numerals besides digits. -/
def marks : List Char := integerMarks ++ ['/', '.']

variable {text : List Char}

theorem Sign.mem_integerMarks (sign : Sign) : ∀ c ∈ sign.characters, c ∈ integerMarks := by
  cases sign <;> simp [characters, integerMarks]

theorem IsInteger.characters {n : Int} (isInteger : IsInteger text n) :
    ∀ c ∈ text, c.isDigit = true ∨ c ∈ integerMarks := by
  cases isInteger with
  | @mk sign first rest isDigit areDigits =>
      simp only [List.forall_mem_append, List.forall_mem_cons]
      refine ⟨fun c member => .inr (sign.mem_integerMarks c member), .inl isDigit,
        fun c member => ?_⟩
      exact (areDigits c member).imp_right fun isUnderscore => List.mem_cons.mpr (.inl isUnderscore)

theorem IsInteger.not_mem {n : Int} (isInteger : IsInteger text n) {c : Char}
    (notDigit : c.isDigit = false) (noMark : c ∉ integerMarks) : c ∉ text := by
  intro member
  rcases isInteger.characters c member with isDigit | isMark
  · exact ne_of_isDigit isDigit notDigit rfl
  · exact noMark isMark

theorem IsQuotient.characters {q : Rat} (isQuotient : IsQuotient text q) :
    ∀ c ∈ text, c.isDigit = true ∨ c ∈ marks := by
  cases isQuotient with
  | mk isNumerator isDenominator _ =>
      simp only [List.forall_mem_append, List.forall_mem_cons]
      refine ⟨fun c member => ?_, .inr (by decide), fun c member => ?_⟩
      · exact (isNumerator.characters c member).imp_right (List.mem_append_left _)
      · exact (isDenominator.characters c member).imp_right (List.mem_append_left _)

theorem IsDecimal.characters {q : Rat} (isDecimal : IsDecimal text q) :
    ∀ c ∈ text, c.isDigit = true ∨ c ∈ marks := by
  cases isDecimal with
  | @mk sign whole fraction _ areDigits _ =>
      have inSign : ∀ c ∈ sign.characters, c ∈ marks :=
        fun c member => List.mem_append_left _ (sign.mem_integerMarks c member)
      have digits := List.forall_mem_append.mp areDigits
      simp only [List.forall_mem_append, List.forall_mem_cons]
      exact ⟨⟨fun c member => .inr (inSign c member), fun c member => .inl (digits.1 c member)⟩,
        .inr (by decide), fun c member => .inl (digits.2 c member)⟩

theorem characters_of_read {text : String} {q : Rat} (isRead : read text = some q) :
    ∀ c ∈ text.toList, c.isDigit = true ∨ c ∈ marks := by
  by_cases point : '.' ∈ text.toList
  · exact ((readCharacters_of_point point q).mp isRead).characters
  · rcases (readCharacters_of_no_point point q).mp isRead with ⟨n, isInteger, _⟩ | isQuotient
    · exact fun c member => (isInteger.characters c member).imp_right (List.mem_append_left _)
    · exact isQuotient.characters

theorem read_eq_none_of_mem {text : String} {c : Char} (member : c ∈ text.toList)
    (notDigit : c.isDigit = false) (noMark : c ∉ marks) : read text = none := by
  cases isRead : read text with
  | none => rfl
  | some q =>
      rcases characters_of_read isRead c member with isDigit | isMark
      · exact absurd rfl (ne_of_isDigit isDigit notDigit)
      · exact absurd isMark noMark

/-! ## Written numerals -/

theorem isInteger_toDigits (sign : Sign) (n : Nat) :
    IsInteger (sign.characters ++ Nat.toDigits 10 n) (sign.signed n) := by
  have areDigits : ∀ c ∈ Nat.toDigits 10 n, c.isDigit = true :=
    fun c member => Nat.isDigit_of_mem_toDigits (by decide) (by decide) member
  have isValue : positional (Nat.toDigits 10 n) = n := by
    rw [← ofDigits_eq_positional, ofDigits, Nat.ofDigitChars_ten_toDigits]
  cases digits : Nat.toDigits 10 n with
  | nil => exact absurd digits Nat.toDigits_ne_nil
  | cons first rest =>
      rw [digits, List.forall_mem_cons] at areDigits
      have noUnderscore : rest.filter Char.isDigit = rest := List.filter_eq_self.mpr areDigits.2
      have isInteger := IsInteger.mk sign areDigits.1 fun c member => .inl (areDigits.2 c member)
      rw [noUnderscore, ← digits, isValue, digits] at isInteger
      exact isInteger

theorem isInteger_toString (n : Int) : IsInteger (toString n).toList n := by
  by_cases isNatural : 0 ≤ n
  · have isText : (toString n).toList = Sign.absent.characters ++ Nat.toDigits 10 n.toNat := by
      simp [Int.repr_eq_if, isNatural, Sign.characters]
    have isInteger := isInteger_toDigits .absent n.toNat
    rwa [← isText, Sign.signed, Int.toNat_of_nonneg isNatural] at isInteger
  · have isText : (toString n).toList = Sign.minus.characters ++ Nat.toDigits 10 (-n).toNat := by
      simp [Int.repr_eq_if, isNatural, Sign.characters]
    have isInteger := isInteger_toDigits .minus (-n).toNat
    rwa [← isText, Sign.signed, Int.toNat_of_nonneg (by omega), Int.neg_neg] at isInteger

theorem write_denotes (q : Rat) :
    (∃ n : Int, IsInteger (write q).toList n ∧ q = n) ∨ IsQuotient (write q).toList q := by
  unfold write
  split
  · rename_i isIntegral
    exact .inl ⟨q.num, isInteger_toString q.num, (Rat.coe_int_num_of_den_eq_one isIntegral).symm⟩
  · have isDenominator : IsInteger (toString q.den).toList q.den := isInteger_toString q.den
    have isQuotient := IsQuotient.mk (isInteger_toString q.num) isDenominator
      (Int.natCast_ne_zero.mpr q.den_nz)
    rw [Rat.intCast_natCast, Rat.num_div_den] at isQuotient
    simpa using Or.inr isQuotient

theorem point_not_mem_write (q : Rat) : '.' ∉ (write q).toList := by
  rcases write_denotes q with ⟨n, isInteger, _⟩ | isQuotient
  · exact isInteger.not_mem rfl (by decide)
  · generalize (write q).toList = text at isQuotient
    cases isQuotient with
    | mk isNumerator isDenominator _ =>
        have inNumerator : '.' ∉ _ := isNumerator.not_mem rfl (by decide)
        have inDenominator : '.' ∉ _ := isDenominator.not_mem rfl (by decide)
        simp [inNumerator, inDenominator]

/-- Reading undoes writing. -/
@[simp] theorem read_write (q : Rat) : read (write q) = some q :=
  (readCharacters_of_no_point (point_not_mem_write q) q).mpr (write_denotes q)

theorem write_injective {p q : Rat} (same : write p = write q) : p = q := by
  have isRead := read_write p
  rw [same, read_write] at isRead
  exact (Option.some.inj isRead).symm

theorem write_ne_empty (q : Rat) : write q ≠ "" := by
  intro isEmpty
  have isRead := read_write q
  rw [isEmpty] at isRead
  cases isRead

end Numeral

open Numeral (read write)

/-! ## Single steps -/

namespace Kernel

variable {store after : Store} {x y r : Object} {set : NumberSet}

namespace Operation

theorem resultName_of_numerals {a b : Rat} (left : read x.name = some a)
    (right : read y.name = some b) (operation : Operation) :
    operation.resultName x y = write (operation.value a b) := by
  rw [resultName, left, right]

theorem resultName_of_symbol (isSymbolic : read x.name = none ∨ read y.name = none)
    (operation : Operation) :
    operation.resultName x y = x.text ++ " " ++ operation.symbol ++ " " ++ y.text := by
  rw [resultName]
  split
  · rename_i left right
    rcases isSymbolic with noLeft | noRight
    · cases noLeft.symm.trans left
    · cases noRight.symm.trans right
  · rfl

theorem blank_mem_symbolic (left sign right : String) :
    ' ' ∈ (left ++ " " ++ sign ++ " " ++ right).toList := by
  simp

/-- A blank is found in no numeral. -/
theorem read_resultName_of_symbol (isSymbolic : read x.name = none ∨ read y.name = none)
    (operation : Operation) : read (operation.resultName x y) = none := by
  rw [resultName_of_symbol isSymbolic]
  exact Numeral.read_eq_none_of_mem (blank_mem_symbolic _ _ _) rfl (by decide)

theorem resultName_ne_empty (operation : Operation) (x y : Object) :
    operation.resultName x y ≠ "" := by
  rw [resultName]
  split
  · exact Numeral.write_ne_empty _
  · intro isEmpty
    have isBlank := blank_mem_symbolic x.text operation.symbol y.text
    rw [isEmpty] at isBlank
    cases isBlank

end Operation

/-- The object that a step results in, given the number set in which it takes place. -/
def resultIn (operation : Operation) (x y : Object) (set : NumberSet) (created : Nat) : Object :=
  ⟨created + 1, operation.resultName x y,
    if leavesNaturals set.kind (operation.resultName x y) then none else some set.id, []⟩

theorem outcome_calculate (isOwner : store.owner x = some (.number set)) (operation : Operation)
    (y : Object) :
    outcome (calculate operation x y) store =
      (.ok (resultIn operation x y set store.created),
        { store with created := store.created + 1 }) := by
  rw [calculate, outcome_bind_of_ok (outcome_get store), isOwner, resultIn]
  dsimp only
  split <;> rfl

theorem exists_owner_of_calculate {operation : Operation}
    (ok : outcome (calculate operation x y) store = (.ok r, after)) :
    ∃ set, store.owner x = some (.number set) := by
  rw [calculate, outcome_bind_of_ok (outcome_get store)] at ok
  split at ok
  · rename_i set isOwner
    exact ⟨set, isOwner⟩
  · cases ok

theorem ok_of_calculate {operation : Operation}
    (ok : outcome (calculate operation x y) store = (.ok r, after)) :
    ∃ set, store.owner x = some (.number set) ∧
      r = resultIn operation x y set store.created := by
  obtain ⟨set, isOwner⟩ := exists_owner_of_calculate ok
  rw [outcome_calculate isOwner] at ok
  cases ok
  exact ⟨set, isOwner, rfl⟩

theorem name_of_calculate {operation : Operation} {a b : Rat} (left : read x.name = some a)
    (right : read y.name = some b)
    (ok : outcome (calculate operation x y) store = (.ok r, after)) :
    r.name = write (operation.value a b) := by
  obtain ⟨set, _, rfl⟩ := ok_of_calculate ok
  exact Operation.resultName_of_numerals left right operation

/-- The object is the result of a step between numerals, whose exact value is given. -/
inductive Calculated (r : Object) : Rat → Prop
  | sum {x y : Object} {a b : Rat} {store after : Store} :
      read x.name = some a → read y.name = some b →
      outcome (calculate .plus x y) store = (.ok r, after) → Calculated r (a + b)
  | difference {x y : Object} {a b : Rat} {store after : Store} :
      read x.name = some a → read y.name = some b →
      outcome (calculate .minus x y) store = (.ok r, after) → Calculated r (a - b)

theorem Calculated.name {q : Rat} (calculated : Calculated r q) : r.name = write q := by
  cases calculated with
  | sum left right ok => exact name_of_calculate left right ok
  | difference left right ok => exact name_of_calculate left right ok

/-- Values are written in one way only. -/
theorem Calculated.beq_iff {r' : Object} {q q' : Rat} (calculated : Calculated r q)
    (calculated' : Calculated r' q') : (r == r') = true ↔ q = q' := by
  have isName := calculated.name
  have isName' := calculated'.name
  rw [Object.beq_iff_name (isName ▸ Numeral.write_ne_empty q)
    (isName' ▸ Numeral.write_ne_empty q'), isName, isName']
  exact ⟨Numeral.write_injective, congrArg write⟩

end Kernel

/-! ## Expressions -/

open Kernel (Operation outcome Calculated)

/-- Steps of addition and subtraction. Each one is taken in a store of its own, since other
calls may come in between. -/
inductive Expression where
  | operand (x : Object)
  | step (operation : Operation) (store : Store) (left right : Expression)

namespace Expression

def result : Expression → Except Fault Object
  | operand x => .ok x
  | step operation store left right => do
      let x ← left.result
      let y ← right.result
      (outcome (Kernel.calculate operation x y) store).1

/-- The value when the symbols stand for the given numbers. -/
def value (symbols : String → Rat) : Expression → Rat
  | operand x => (read x.name).getD (symbols x.name)
  | step .plus _ left right => left.value symbols + right.value symbols
  | step .minus _ left right => left.value symbols - right.value symbols

/-- Holds if there are no symbols. -/
def isNumeric : Expression → Bool
  | operand x => (read x.name).isSome
  | step _ _ left right => left.isNumeric && right.isNumeric

/-- At every step the left operand belongs to a number set that exists. -/
def StaysOwned : Expression → Prop
  | operand _ => True
  | step _ store left right => left.StaysOwned ∧ right.StaysOwned ∧
      ∀ x, left.result = .ok x → ∃ set, store.owner x = some (.number set)

variable {e : Expression} {r : Object}

theorem value_step (symbols : String → Rat) (operation : Operation) (store : Store)
    (left right : Expression) :
    (step operation store left right).value symbols =
      operation.value (left.value symbols) (right.value symbols) := by
  cases operation <;> rfl

theorem ok_of_step {operation : Operation} {store : Store} {left right : Expression}
    (ok : (step operation store left right).result = .ok r) :
    ∃ x y set, left.result = .ok x ∧ right.result = .ok y ∧
      store.owner x = some (.number set) ∧
      r = Kernel.resultIn operation x y set store.created := by
  rw [result] at ok
  obtain ⟨x, isLeft, ok⟩ := Inference.ok_of_bind ok
  obtain ⟨y, isRight, ok⟩ := Inference.ok_of_bind ok
  obtain ⟨set, isOwner, isResult⟩ := Kernel.ok_of_calculate (Prod.ext ok rfl)
  exact ⟨x, y, set, isLeft, isRight, isOwner, isResult⟩

theorem result_step {operation : Operation} {store : Store} {left right : Expression}
    {x y : Object} {set : NumberSet} (isLeft : left.result = .ok x) (isRight : right.result = .ok y)
    (isOwner : store.owner x = some (.number set)) :
    (step operation store left right).result =
      .ok (Kernel.resultIn operation x y set store.created) := by
  rw [result, isLeft, isRight]
  exact congrArg Prod.fst (Kernel.outcome_calculate isOwner operation y)

theorem read_of_result (isNumeric : e.isNumeric = true) (ok : e.result = .ok r)
    (symbols : String → Rat) : read r.name = some (e.value symbols) := by
  induction e generalizing r with
  | operand x =>
      cases ok
      obtain ⟨q, isRead⟩ := Option.isSome_iff_exists.mp isNumeric
      rw [value, isRead]
      rfl
  | step operation store left right leftInduction rightInduction =>
      obtain ⟨leftNumeric, rightNumeric⟩ := Bool.and_eq_true_iff.mp isNumeric
      obtain ⟨x, y, set, isLeft, isRight, _, rfl⟩ := ok_of_step ok
      rw [Kernel.resultIn, Operation.resultName_of_numerals (leftInduction leftNumeric isLeft)
        (rightInduction rightNumeric isRight), Numeral.read_write, value_step]

theorem StaysOwned.exists_result (owned : e.StaysOwned) : ∃ r, e.result = .ok r := by
  induction e with
  | operand x => exact ⟨x, rfl⟩
  | step operation store left right leftInduction rightInduction =>
      obtain ⟨leftOwned, rightOwned, isOwned⟩ := owned
      obtain ⟨x, isLeft⟩ := leftInduction leftOwned
      obtain ⟨y, isRight⟩ := rightInduction rightOwned
      obtain ⟨set, isOwner⟩ := isOwned x isLeft
      exact ⟨_, result_step isLeft isRight isOwner⟩

end Expression

/-- The object is called by the value in the notation of the rationals. -/
def Object.Writes (r : Object) (q : Rat) : Prop :=
  read r.name = some q ∧ '.' ∉ r.name.toList ∧ NumberKind.rationals.isLiteral r.name = true

theorem Object.writes_of_name {r : Object} {q : Rat} (isName : r.name = write q) :
    r.Writes q := by
  have noPoint : '.' ∉ r.name.toList := isName ▸ Numeral.point_not_mem_write q
  have isRead : read r.name = some q := by rw [isName, Numeral.read_write]
  refine ⟨isRead, noPoint, ?_⟩
  simp [NumberKind.isLiteral, noPoint, isRead]

/-- A step between numerals succeeds in a number set and gives the exact value in the notation
of the rationals, which is the same for the same value. So a calculation with any number of
steps gives the exact value, too. -/
theorem Kernel.calculate_exact :
    (∀ {store : Store} {x y : Object} {set : NumberSet} {a b : Rat},
      store.owner x = some (.number set) → read x.name = some a → read y.name = some b →
      (∃ r after, outcome (calculate .plus x y) store = (.ok r, after) ∧ r.Writes (a + b)) ∧
      ∃ r after, outcome (calculate .minus x y) store = (.ok r, after) ∧ r.Writes (a - b)) ∧
    (∀ {r r' : Object} {q q' : Rat}, Calculated r q → Calculated r' q' →
      ((r == r') = true ↔ q = q')) ∧
    ∀ {e : Expression}, e.isNumeric = true → e.StaysOwned →
      ∃ r, e.result = .ok r ∧ ∀ symbols, read r.name = some (e.value symbols) := by
  refine ⟨fun {store x y set a b} isOwner left right => ?_,
    fun calculated calculated' => calculated.beq_iff calculated', fun isNumeric owned => ?_⟩
  · have writes (operation : Operation) : ∃ r after,
        outcome (calculate operation x y) store = (.ok r, after) ∧
          r.Writes (operation.value a b) := by
      have ok := outcome_calculate isOwner operation y
      exact ⟨_, _, ok, Object.writes_of_name (name_of_calculate left right ok)⟩
    exact ⟨writes .plus, writes .minus⟩
  · obtain ⟨r, isResult⟩ := owned.exists_result
    exact ⟨r, isResult, Expression.read_of_result isNumeric isResult⟩

/-! The sample has the numerals `1/2` and `1.5` among the rationals and reals, and `5` and `3`
among the naturals. -/

namespace Expression.Sample

open Run.Sample (counted)

def half : Object := ⟨1, "1/2", some 2, []⟩

def decimal : Object := ⟨2, "1.5", some 3, []⟩

def five : Object := ⟨3, "5", some 1, []⟩

def three : Object := ⟨4, "3", some 1, []⟩

/-- `(1/2 + 1.5) - 3`. -/
def difference : Expression :=
  .step .minus counted.store (.step .plus counted.store (.operand half) (.operand decimal))
    (.operand three)

theorem staysOwned_difference : difference.StaysOwned := by
  refine ⟨⟨trivial, trivial, fun x isHalf => ?_⟩, trivial, fun x isSum => ?_⟩
  · cases isHalf
    exact ⟨.rationals 2 1, rfl⟩
  · obtain ⟨_, _, set, isHalf, _, isOwner, rfl⟩ := ok_of_step isSum
    cases isHalf
    cases isOwner
    exact ⟨.rationals 2 1, rfl⟩

end Expression.Sample

open Run.Sample Expression.Sample in
theorem Kernel.calculate_exact_halves :
    (∃ sum rest after after',
      outcome (calculate .plus half decimal) counted.store = (.ok sum, after) ∧
      outcome (calculate .minus five three) counted.store = (.ok rest, after') ∧
      read sum.name = some (1 / 2 + 3 / 2) ∧ NumberKind.rationals.isLiteral sum.name = true ∧
      (sum == rest) = true) ∧
    ∃ r, difference.result = .ok r ∧ read r.name = some (1 / 2 + 3 / 2 - 3) := by
  have isHalf : read half.name = some (1 / 2) := by decide +kernel
  have isDecimal : read decimal.name = some (3 / 2) := by decide +kernel
  have isFive : read five.name = some 5 := by decide +kernel
  have isThree : read three.name = some 3 := by decide +kernel
  have inRationals : counted.store.owner half = some middle := rfl
  have inNaturals : counted.store.owner five = some lowest := rfl
  obtain ⟨steps, canonical, calculations⟩ := Kernel.calculate_exact
  constructor
  · obtain ⟨⟨sum, after, ok, isRead, _, isLiteral⟩, _⟩ := steps inRationals isHalf isDecimal
    obtain ⟨_, rest, after', ok', _⟩ := steps inNaturals isFive isThree
    have isSum : Calculated sum (1 / 2 + 3 / 2) := .sum isHalf isDecimal ok
    have isRest : Calculated rest (5 - 3) := .difference isFive isThree ok'
    have sameValue : (1 / 2 + 3 / 2 : Rat) = 5 - 3 := by decide +kernel
    exact ⟨sum, rest, after, after', ok, ok', isRead, isLiteral,
      (canonical isSum isRest).mpr sameValue⟩
  · have isNumeric : difference.isNumeric = true := by decide +kernel
    obtain ⟨r, isResult, isRead⟩ := calculations isNumeric staysOwned_difference
    have isValue : difference.value (fun _ => 0) = 1 / 2 + 3 / 2 - 3 := by decide +kernel
    exact ⟨r, isResult, isValue ▸ isRead fun _ => 0⟩

end Deduction
