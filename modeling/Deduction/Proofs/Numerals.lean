import Deduction.Numeral
import Mathlib.Algebra.Ring.Rat

/-! # The grammar of numerals

Which texts are integers, quotients and decimals, and what they denote. The reader, which
cuts a text at its first point or slash, accepts just these texts and finds their values. -/

namespace Deduction.Numeral

/-! ## Grammar -/

inductive Sign where
  | absent
  | plus
  | minus
  deriving DecidableEq

namespace Sign

def characters : Sign → List Char
  | absent => []
  | plus => ['+']
  | minus => ['-']

def signed : Sign → Nat → Int
  | absent, value => value
  | plus, value => value
  | minus, value => -value

end Sign

/-- The number that digits write in the decimal system, the most significant first. -/
def positional : List Char → Nat
  | [] => 0
  | digit :: rest => (digit.toNat - '0'.toNat) * 10 ^ rest.length + positional rest

/-- Underscores after the first digit count for nothing. -/
inductive IsInteger : List Char → Int → Prop
  | mk (sign : Sign) {first : Char} {rest : List Char} :
      first.isDigit = true → (∀ c ∈ rest, c.isDigit = true ∨ c = '_') →
      IsInteger (sign.characters ++ first :: rest)
        (sign.signed (positional (first :: rest.filter Char.isDigit)))

inductive IsQuotient : List Char → Rat → Prop
  | mk {numerator denominator : List Char} {n d : Int} :
      IsInteger numerator n → IsInteger denominator d → d ≠ 0 →
      IsQuotient (numerator ++ '/' :: denominator) ((n : Rat) / d)

/-- A decimal takes no `+` sign, and there are digits before or after its point. -/
inductive IsDecimal : List Char → Rat → Prop
  | mk {sign : Sign} {whole fraction : List Char} :
      sign ≠ .plus → (∀ c ∈ whole ++ fraction, c.isDigit = true) → whole ++ fraction ≠ [] →
      IsDecimal (sign.characters ++ whole ++ '.' :: fraction)
        ((sign.signed (positional (whole ++ fraction)) : Rat) / 10 ^ fraction.length)

/-! ## Digits -/

theorem ofDigits_eq_positional (digits : List Char) : ofDigits digits = positional digits := by
  induction digits with
  | nil => rfl
  | cons digit rest induction =>
      rw [ofDigits, Nat.ofDigitChars_cons, Nat.ofDigitChars_eq_ofDigitChars_zero, positional,
        ← induction, ofDigits]
      simp [Nat.mul_comm]

theorem ne_of_isDigit {c other : Char} (isDigit : c.isDigit = true)
    (notDigit : other.isDigit = false) : c ≠ other := by
  intro same
  rw [same, notDigit] at isDigit
  cases isDigit

/-! ## Separators -/

variable {separator : Char} {text left right : List Char}

theorem cutAt_eq_none_iff : cutAt separator text = none ↔ separator ∉ text := by
  induction text with
  | nil => simp [cutAt]
  | cons head tail induction =>
      by_cases isSeparator : head = separator
      · simp [cutAt, isSeparator]
      · simp [cutAt, isSeparator, induction, Ne.symm isSeparator]

theorem eq_append_of_cutAt (cut : cutAt separator text = some (left, right)) :
    text = left ++ separator :: right := by
  induction text generalizing left with
  | nil => cases cut
  | cons head tail induction =>
      rw [cutAt] at cut
      split at cut
      · rename_i isSeparator
        cases cut
        rw [isSeparator, List.nil_append]
      · obtain ⟨⟨before, after⟩, found, same⟩ := Option.map_eq_some_iff.mp cut
        cases same
        rw [induction found, List.cons_append]

theorem cutAt_append (absent : separator ∉ left) (right : List Char) :
    cutAt separator (left ++ separator :: right) = some (left, right) := by
  induction left with
  | nil => simp [cutAt]
  | cons head tail induction =>
      simp only [List.mem_cons, not_or] at absent
      rw [List.cons_append, cutAt, if_neg (Ne.symm absent.1), induction absent.2]
      rfl

/-! ## Integers -/

theorem readUnsigned_of_digits {first : Char} {rest : List Char} (isDigit : first.isDigit = true)
    (areDigits : ∀ c ∈ rest, c.isDigit = true ∨ c = '_') :
    readUnsigned (first :: rest) = some (positional (first :: rest.filter Char.isDigit)) := by
  rw [readUnsigned, if_pos, ofDigits_eq_positional]
  simpa [isDigit] using areDigits

theorem digits_of_readUnsigned {value : Nat} (ok : readUnsigned text = some value) :
    ∃ first rest, text = first :: rest ∧ first.isDigit = true ∧
      (∀ c ∈ rest, c.isDigit = true ∨ c = '_') ∧
      value = positional (first :: rest.filter Char.isDigit) := by
  cases text with
  | nil => cases ok
  | cons first rest =>
      rw [readUnsigned] at ok
      split at ok
      · rename_i accepted
        cases ok
        have parts := Bool.and_eq_true_iff.mp accepted
        refine ⟨first, rest, rfl, parts.1, ?_, ofDigits_eq_positional _⟩
        simpa using parts.2
      · cases ok

theorem exists_sign_readInteger (text : List Char) :
    ∃ (sign : Sign) (rest : List Char), text = sign.characters ++ rest ∧
      readInteger text = (readUnsigned rest).map sign.signed := by
  unfold readInteger
  split
  · rename_i rest
    refine ⟨.minus, rest, rfl, ?_⟩
    cases readUnsigned rest <;> rfl
  · rename_i rest
    refine ⟨.plus, rest, rfl, ?_⟩
    cases readUnsigned rest <;> rfl
  · refine ⟨.absent, text, rfl, ?_⟩
    cases readUnsigned text <;> rfl

/-- A digit is not taken for a sign. -/
theorem readInteger_signed (sign : Sign) {first : Char} (isDigit : first.isDigit = true)
    (rest : List Char) :
    readInteger (sign.characters ++ first :: rest) =
      (readUnsigned (first :: rest)).map sign.signed := by
  cases sign with
  | absent =>
      change readInteger (first :: rest) = _
      unfold readInteger
      split
      · rename_i same
        cases same
        cases isDigit
      · rename_i same
        cases same
        cases isDigit
      · cases readUnsigned (first :: rest) <;> rfl
  | plus =>
      change readInteger ('+' :: first :: rest) = _
      rw [readInteger]
      cases readUnsigned (first :: rest) <;> rfl
  | minus =>
      change readInteger ('-' :: first :: rest) = _
      rw [readInteger]
      cases readUnsigned (first :: rest) <;> rfl

theorem readInteger_eq_some_iff {n : Int} : readInteger text = some n ↔ IsInteger text n := by
  constructor
  · intro ok
    obtain ⟨sign, unsigned, rfl, isRead⟩ := exists_sign_readInteger text
    rw [isRead] at ok
    obtain ⟨value, isValue, rfl⟩ := Option.map_eq_some_iff.mp ok
    obtain ⟨first, rest, rfl, isDigit, areDigits, rfl⟩ := digits_of_readUnsigned isValue
    exact .mk sign isDigit areDigits
  · rintro ⟨sign, isDigit, areDigits⟩
    rw [readInteger_signed sign isDigit, readUnsigned_of_digits isDigit areDigits]
    rfl

theorem IsInteger.slash_not_mem {n : Int} (isInteger : IsInteger text n) : '/' ∉ text := by
  cases isInteger with
  | @mk sign first rest isDigit areDigits =>
      have inSign : '/' ∉ sign.characters := by cases sign <;> decide
      have inRest : '/' ∉ rest := fun member => by
        rcases areDigits _ member with isDigit | same
        · cases isDigit
        · cases same
      have notFirst := (ne_of_isDigit isDigit (show '/'.isDigit = false from rfl)).symm
      simp [inSign, inRest, notFirst]

/-! ## Quotients -/

theorem readQuotient_eq_some_iff {q : Rat} :
    readQuotient left right = some q ↔
      ∃ n d : Int, IsInteger left n ∧ IsInteger right d ∧ d ≠ 0 ∧ q = (n : Rat) / d := by
  simp only [← readInteger_eq_some_iff, readQuotient]
  cases readInteger left with
  | none => simp
  | some n =>
      cases readInteger right with
      | none => simp
      | some d =>
          by_cases isZero : d = 0
          · simp [isZero]
          · simp [isZero, Rat.divInt_eq_div, eq_comm]

theorem readCharacters_of_no_point (noPoint : '.' ∉ text) (q : Rat) :
    readCharacters text = some q ↔ (∃ n : Int, IsInteger text n ∧ q = n) ∨ IsQuotient text q := by
  rw [readCharacters, cutAt_eq_none_iff.mpr noPoint]
  dsimp only
  constructor
  · intro ok
    split at ok
    · rename_i numerator denominator cut
      obtain ⟨n, d, isNumerator, isDenominator, notZero, rfl⟩ := readQuotient_eq_some_iff.mp ok
      rw [eq_append_of_cutAt cut]
      exact .inr (.mk isNumerator isDenominator notZero)
    · cases isRead : readInteger text with
      | none =>
          rw [isRead] at ok
          cases ok
      | some n =>
          rw [isRead] at ok
          cases ok
          exact .inl ⟨n, readInteger_eq_some_iff.mp isRead, rfl⟩
  · rintro (⟨n, isInteger, rfl⟩ | ⟨isNumerator, isDenominator, notZero⟩)
    · rw [cutAt_eq_none_iff.mpr isInteger.slash_not_mem, readInteger_eq_some_iff.mpr isInteger]
      rfl
    · rw [cutAt_append isNumerator.slash_not_mem]
      exact readQuotient_eq_some_iff.mpr ⟨_, _, isNumerator, isDenominator, notZero, rfl⟩

/-! ## Decimals -/

theorem readUnsignedDecimal_eq_some_iff {q : Rat} :
    readUnsignedDecimal left right = some q ↔
      (∀ c ∈ left ++ right, c.isDigit = true) ∧ left ++ right ≠ [] ∧
        q = ((positional (left ++ right) : Int) : Rat) / 10 ^ right.length := by
  have isValue : mkRat (ofDigits (left ++ right)) (Nat.pow 10 right.length) =
      ((positional (left ++ right) : Int) : Rat) / 10 ^ right.length := by
    rw [Rat.mkRat_eq_div, ofDigits_eq_positional, Nat.pow_eq, Rat.natCast_pow]
    rfl
  have accepted : (allDigits left && allDigits right && !(left ++ right).isEmpty) = true ↔
      (∀ c ∈ left ++ right, c.isDigit = true) ∧ left ++ right ≠ [] := by
    simp [allDigits, or_imp, forall_and]
  rw [readUnsignedDecimal, isValue, ← and_assoc, ← accepted]
  split
  · rename_i isAccepted
    simp [isAccepted, eq_comm]
  · rename_i isRefused
    simp [isRefused]

theorem neg_div_eq_minus (value : Nat) (divisor : Rat) :
    -(((value : Int) : Rat) / divisor) = (Sign.minus.signed value : Rat) / divisor := by
  rw [Sign.signed, Rat.intCast_neg, Rat.div_def, Rat.div_def, Rat.neg_mul]

theorem isDecimal_of_readDecimal {q : Rat} (ok : readDecimal left right = some q) :
    IsDecimal (left ++ '.' :: right) q := by
  unfold readDecimal at ok
  split at ok
  · rename_i whole
    obtain ⟨value, isValue, rfl⟩ := Option.map_eq_some_iff.mp ok
    obtain ⟨areDigits, notEmpty, rfl⟩ := readUnsignedDecimal_eq_some_iff.mp isValue
    rw [neg_div_eq_minus]
    exact .mk (show Sign.minus ≠ .plus by decide) areDigits notEmpty
  · obtain ⟨areDigits, notEmpty, rfl⟩ := readUnsignedDecimal_eq_some_iff.mp ok
    exact .mk (show Sign.absent ≠ .plus by decide) areDigits notEmpty

theorem readDecimal_of_digits {sign : Sign} (notPlus : sign ≠ .plus)
    (areDigits : ∀ c ∈ left ++ right, c.isDigit = true) (notEmpty : left ++ right ≠ []) :
    readDecimal (sign.characters ++ left) right =
      some ((sign.signed (positional (left ++ right)) : Rat) / 10 ^ right.length) := by
  have isRead := readUnsignedDecimal_eq_some_iff.mpr ⟨areDigits, notEmpty, rfl⟩
  cases sign with
  | absent =>
      change readDecimal left right = _
      unfold readDecimal
      split
      · -- A digit is not taken for a sign.
        cases areDigits '-' (by simp)
      · exact isRead
  | plus => exact absurd rfl notPlus
  | minus =>
      change readDecimal ('-' :: left) right = _
      rw [readDecimal, isRead, ← neg_div_eq_minus]
      rfl

theorem readCharacters_of_point (point : '.' ∈ text) (q : Rat) :
    readCharacters text = some q ↔ IsDecimal text q := by
  constructor
  · intro ok
    cases cut : cutAt '.' text with
    | none => exact absurd point (cutAt_eq_none_iff.mp cut)
    | some parts =>
        rw [readCharacters, cut] at ok
        rw [eq_append_of_cutAt cut]
        exact isDecimal_of_readDecimal ok
  · rintro ⟨notPlus, areDigits, notEmpty⟩
    rename_i sign whole fraction
    have absent : '.' ∉ sign.characters ++ whole := by
      have inSign : '.' ∉ sign.characters := by cases sign <;> decide
      have inWhole : '.' ∉ whole := fun member => by
        cases areDigits '.' (List.mem_append_left fraction member)
      simp [inSign, inWhole]
    rw [readCharacters, cutAt_append absent]
    exact readDecimal_of_digits notPlus areDigits notEmpty

/-! ## Reading -/

/-- A text with a point is read just if it is a decimal, and any other text just if it is an
integer or a quotient of integers. The value is exact. -/
theorem read_eq_some_iff_denotes (text : String) (q : Rat) :
    read text = some q ↔
      if '.' ∈ text.toList then IsDecimal text.toList q
      else (∃ n : Int, IsInteger text.toList n ∧ q = n) ∨ IsQuotient text.toList q := by
  rw [read]
  split
  · rename_i point
    exact readCharacters_of_point point q
  · rename_i noPoint
    exact readCharacters_of_no_point noPoint q

example : read "-.25" = some (-1 / 4) ∧ read "+1_0/-4" = some (-5 / 2) ∧ read "+.5" = none ∧
    read "1/0" = none ∧ read "_1" = none := by
  decide +kernel

end Deduction.Numeral
