import Deduction.Document
import Deduction.Proofs.Equality

/-! # Readability

If all names are words, a proposition can be read off its text up to equality. There are no
brackets around the body of a quantifier, a membership or an ordering, so what ends them is
only what may follow. The reader given here finds the document of a proposition at the
beginning of any text that goes on with a comma or a closing bracket. -/

namespace Deduction

/-! ## Legible propositions -/

/-- Words are made of letters, digits and underscores. -/
def isWordCharacter (c : Char) : Bool :=
  c.isAlphanum || c == '_'

def isWord (name : String) : Bool :=
  !name.toList.isEmpty && name.toList.all isWordCharacter

/-- The connective that is written by the word. -/
def Connective.ofWord (word : String) : Option Connective :=
  [implies, and, or, equivalent].find? fun connective => connective.word == word

def Object.isLegible (x : Object) : Bool :=
  x.name == "" || isWord x.name

def Argument.isLegible : Argument → Bool
  | object x => x.isLegible
  | set _ => false

/-- All names are words, the arguments of atoms are objects, and no atom with arguments is
called like a connective. -/
def Proposition.isLegible : Proposition → Bool
  | atom name arguments =>
      isWord name && arguments.all Argument.isLegible &&
        (arguments.isEmpty || (Connective.ofWord name).isNone)
  | falsum => true
  | binary left _ right => left.isLegible && right.isLegible
  | quantified _ bound body => bound.isLegible && body.isLegible
  | member element set => element.isLegible && isWord set.name
  | ordered left _ right => left.isLegible && right.isLegible

/-! ## Marks -/

/-- Two texts without marks end at the first mark that follows. -/
theorem eq_of_append_eq {isMark : Char → Bool} {left right rest rest' : List Char}
    (plain : ∀ c ∈ left, isMark c = false) (plain' : ∀ c ∈ right, isMark c = false)
    (ends : ∀ c, rest.head? = some c → isMark c = true)
    (ends' : ∀ c, rest'.head? = some c → isMark c = true)
    (same : left ++ rest = right ++ rest') : left = right ∧ rest = rest' := by
  induction left generalizing right with
  | nil =>
      cases right with
      | nil => exact ⟨rfl, same⟩
      | cons d right =>
          have marked := ends d (by simp [show rest = d :: (right ++ rest') from same])
          simp [plain' d List.mem_cons_self] at marked
  | cons c left induction =>
      cases right with
      | nil =>
          have marked := ends' c (by simp [show rest' = c :: (left ++ rest) from same.symm])
          simp [plain c List.mem_cons_self] at marked
      | cons d right =>
          rw [List.forall_mem_cons] at plain plain'
          rcases List.cons.inj same with ⟨rfl, sameTail⟩
          rcases induction plain.2 plain'.2 sameTail with ⟨rfl, sameRest⟩
          exact ⟨rfl, sameRest⟩

/-! ## Reading

Each reader takes what it reads off the beginning of a text and returns the rest. Objects
are told by their texts, which is all that documents show of them. -/

namespace Reader

def word (text : List Char) : String × List Char :=
  (String.ofList (text.takeWhile isWordCharacter), text.dropWhile isWordCharacter)

/-- A bracket after the word shows that the object has no name. -/
def object (text : List Char) : Option (String × List Char) :=
  match word text with
  | (name, '(' :: rest) =>
      match word rest with
      | (number, ')' :: rest) => some (name ++ argumentText [number], rest)
      | _ => none
  | (name, rest) => some (name, rest)

/-- One or more objects up to the bracket that closes them. -/
def objects : Nat → List Char → Option (List String × List Char)
  | 0, _ => none
  | steps + 1, text =>
      match object text with
      | some (x, ',' :: ' ' :: rest) =>
          (objects steps rest).map fun (others, rest) => (x :: others, rest)
      | some (x, ')' :: rest) => some ([x], rest)
      | _ => none

def relation : Char → Option Relation
  | '<' => some .less
  | '≤' => some .atMost
  | '>' => some .greater
  | '≥' => some .atLeast
  | '=' => some .equal
  | _ => none

/-- What is said of an object that has been read. -/
def assertion (x : String) : List Char → Option (Document × List Char)
  | '∈' :: ' ' :: rest =>
      match word rest with
      | (set, rest) => some (.record [("Mem", .list [.text x, .text set])], rest)
  | symbol :: ' ' :: rest => do
      let relation ← relation symbol
      let (y, rest) ← object rest
      return (.record [("Ord", .list [.text x, .text relation.label, .text y])], rest)
  | _ => none

def atom (name : String) (arguments : List String) : Document :=
  .record [("Atom", .list [.text name,
    .list (arguments.map fun x => .record [("Object", .text x)])])]

/-- The arguments of an atom, unless these turn out to be the number of an unnamed object. -/
def applied (name : String) (text : List Char) : Option (Document × List Char) := do
  match ← objects text.length text with
  | (arguments, ' ' :: rest) => assertion (name ++ argumentText arguments) rest
  | (arguments, rest) => return (atom name arguments, rest)

def binary (left : Document) (connective : Connective) (right : Document) : Document :=
  .record [("Bin", .list [left, .text connective.label, right])]

section Parts

variable (read : List Char → Option (Document × List Char))

def operands (connective : Connective) (text : List Char) : Option (Document × List Char) := do
  match ← read text with
  | (left, ',' :: ' ' :: rest) =>
      match ← read rest with
      | (right, ')' :: rest) => return (binary left connective right, rest)
      | _ => none
  | _ => none

/-- A proposition that begins with a word. What follows the word tells what it names. -/
def worded (text : List Char) : Option (Document × List Char) :=
  match word text with
  | (name, ' ' :: rest) => assertion name rest
  | (name, '(' :: rest) =>
      match Connective.ofWord name with
      | some connective => operands read connective rest
      | none => applied name rest
  | (name, rest) => some (atom name [], rest)

def quantified (quantifier : Quantifier) (text : List Char) : Option (Document × List Char) := do
  match ← object text with
  | (x, ',' :: ' ' :: rest) =>
      let (body, rest) ← read rest
      return (.record [("Quant", .list [.text quantifier.label, .text x, body])], rest)
  | _ => none

end Parts

def proposition : Nat → List Char → Option (Document × List Char)
  | 0, _ => none
  | _ + 1, '⊥' :: rest => some (.text "False", rest)
  | steps + 1, '¬' :: rest => do
      let (denied, rest) ← proposition steps rest
      return (binary denied .implies (.text "False"), rest)
  | steps + 1, '∀' :: rest => quantified (proposition steps) .universal rest
  | steps + 1, '∃' :: rest => quantified (proposition steps) .existential rest
  | steps + 1, text => worded (proposition steps) text

/-- The document that the text as a whole stands for, if it can be read. -/
def read (text : String) : Option Document :=
  match proposition (text.toList.length + 1) text.toList with
  | some (document, []) => some document
  | _ => none

/-! ## Words and objects -/

/-- The text does not go on with a word. -/
def EndsWord (rest : List Char) : Prop :=
  ∀ c ∈ rest.head?, isWordCharacter c = false

/-- A proposition may end where the rest begins. -/
def Ends (rest : List Char) : Prop :=
  ∀ c ∈ rest.head?, c = ',' ∨ c = ')'

theorem Ends.word {rest : List Char} (ends : Ends rest) : EndsWord rest := by
  intro c isHead
  rcases ends c isHead with rfl | rfl <;> decide

theorem ends_comma (rest : List Char) : Ends (',' :: rest) := by
  simp [Ends]

theorem ends_bracket (rest : List Char) : Ends (')' :: rest) := by
  simp [Ends]

theorem endsWord_cons {c : Char} (notPart : isWordCharacter c = false) (rest : List Char) :
    EndsWord (c :: rest) := by
  simpa [EndsWord] using notPart

theorem word_append {name : String} {rest : List Char} (isWord : isWord name = true)
    (ends : EndsWord rest) : word (name.toList ++ rest) = (name, rest) := by
  have inside : ∀ c ∈ name.toList, isWordCharacter c = true :=
    List.all_eq_true.mp (Bool.and_eq_true_iff.mp isWord).2
  have outside :
      rest.takeWhile isWordCharacter = [] ∧ rest.dropWhile isWordCharacter = rest := by
    cases rest with
    | nil => exact ⟨rfl, rfl⟩
    | cons c rest =>
        have notPart := Bool.eq_false_iff.mp (ends c rfl)
        exact ⟨List.takeWhile_cons_of_neg notPart, List.dropWhile_cons_of_neg notPart⟩
  rw [word, List.takeWhile_append_of_pos inside, List.dropWhile_append_of_pos inside, outside.1,
    outside.2, List.append_nil, String.ofList_toList]

theorem word_bracket {name : String} (isWord : isWord name = true) (rest : List Char) :
    word (name.toList ++ '(' :: rest) = (name, '(' :: rest) :=
  word_append isWord (endsWord_cons rfl rest)

theorem word_blank {name : String} (isWord : isWord name = true) (rest : List Char) :
    word (name.toList ++ ' ' :: rest) = (name, ' ' :: rest) :=
  word_append isWord (endsWord_cons rfl rest)

/-- The text is read as that of an object. -/
def ReadsAsObject (text : String) : Prop :=
  ∀ rest, Ends rest → object (text.toList ++ rest) = some (text, rest)

theorem readsAsObject_of_isWord {name : String} (isWord : isWord name = true) :
    ReadsAsObject name := by
  intro rest ends
  rw [object, word_append isWord ends.word]
  cases rest with
  | nil => rfl
  | cons c rest => rcases ends c rfl with rfl | rfl <;> rfl

end Reader

/-- How the number of an unnamed object is written. -/
def Object.numberWord (x : Object) : String :=
  "e_" ++ toString x.id

theorem Object.isWord_numberWord (x : Object) : isWord x.numberWord = true := by
  have digits : ∀ c ∈ Nat.toDigits 10 x.id, isWordCharacter c = true := by
    intro c member
    simp [isWordCharacter, Char.isAlphanum,
      Nat.isDigit_of_mem_toDigits (by decide) (by decide) member]
  have areWord : x.numberWord.toList = 'e' :: '_' :: Nat.toDigits 10 x.id := by
    simp [numberWord, Nat.repr_eq_ofList_toDigits]
  simpa [isWord, areWord] using ⟨by decide, by decide, digits⟩

theorem Object.text_of_unnamed {x : Object} (unnamed : x.name = "") :
    x.text = "Obj" ++ argumentText [x.numberWord] := by
  simp [text, unnamed, argumentText, numberWord, ← String.toList_inj]

namespace Reader

theorem toList_argumentText (text : String) (rest : List Char) :
    (argumentText [text]).toList ++ rest = '(' :: (text.toList ++ ')' :: rest) := by
  simp [argumentText]

theorem readsAsObject_text {x : Object} (legible : x.isLegible = true) :
    ReadsAsObject x.text := by
  by_cases unnamed : x.name = ""
  · intro rest ends
    have number := word_append x.isWord_numberWord (ends_bracket rest).word
    rw [Object.text_of_unnamed unnamed, String.toList_append, List.append_assoc,
      toList_argumentText]
    simp only [object, word_bracket (show isWord "Obj" = true by decide), number]
  · rw [Object.text_of_named unnamed]
    exact readsAsObject_of_isWord (by simpa [Object.isLegible, unnamed] using legible)

theorem toList_intercalate_cons_cons (first second : String) (others : List String) :
    (", ".intercalate (first :: second :: others)).toList =
      first.toList ++ ',' :: ' ' :: (", ".intercalate (second :: others)).toList := by
  simp

theorem length_le_intercalate (first : String) (others : List String) :
    others.length ≤ (", ".intercalate (first :: others)).toList.length := by
  induction others generalizing first with
  | nil => exact Nat.zero_le _
  | cons second others induction =>
      have fewer := induction second
      rw [toList_intercalate_cons_cons]
      simp only [List.length_append, List.length_cons]
      omega

theorem objects_intercalate {first : String} {others : List String} {steps : Nat}
    (readAsObjects : ∀ text ∈ first :: others, ReadsAsObject text)
    (enough : others.length < steps) (rest : List Char) :
    objects steps ((", ".intercalate (first :: others)).toList ++ ')' :: rest) =
      some (first :: others, rest) := by
  induction others generalizing first steps with
  | nil =>
      obtain ⟨steps, rfl⟩ := Nat.exists_eq_add_of_lt enough
      simp [objects, readAsObjects first List.mem_cons_self _ (ends_bracket rest)]
  | cons second others induction =>
      obtain ⟨steps, rfl⟩ := Nat.exists_eq_add_of_lt enough
      obtain ⟨ofFirst, ofOthers⟩ := List.forall_mem_cons.mp readAsObjects
      have areRead := @induction second (others.length + 1 + steps) ofOthers (by omega)
      rw [toList_intercalate_cons_cons, List.append_assoc, List.cons_append, List.cons_append,
        objects, ofFirst _ (ends_comma _)]
      simp only [List.length_cons, areRead, Option.map_some]

section Applied

variable (name : String) {first : String} {others : List String}
  (readAsObjects : ∀ text ∈ first :: others, ReadsAsObject text)

include readAsObjects

theorem objects_arguments (rest : List Char) :
    let text := (", ".intercalate (first :: others)).toList ++ ')' :: rest
    objects text.length text = some (first :: others, rest) := by
  refine objects_intercalate readAsObjects ?_ rest
  have enough := length_le_intercalate first others
  rw [List.length_append, List.length_cons]
  omega

theorem applied_of_said (said : List Char) :
    applied name ((", ".intercalate (first :: others)).toList ++ ')' :: ' ' :: said) =
      assertion (name ++ argumentText (first :: others)) said := by
  rw [applied, objects_arguments readAsObjects]
  rfl

theorem applied_of_ends {rest : List Char} (ends : Ends rest) :
    applied name ((", ".intercalate (first :: others)).toList ++ ')' :: rest) =
      some (atom name (first :: others), rest) := by
  rw [applied, objects_arguments readAsObjects]
  cases rest with
  | nil => rfl
  | cons c rest => rcases ends c rfl with rfl | rfl <;> rfl

end Applied

theorem assertion_member {x set : String} {rest : List Char} (isWord : isWord set = true)
    (ends : Ends rest) :
    assertion x ('∈' :: ' ' :: (set.toList ++ rest)) =
      some (.record [("Mem", .list [.text x, .text set])], rest) := by
  simp only [assertion, word_append isWord ends.word]

theorem assertion_ordered {x : String} {y : Object} {rest : List Char} (relation : Relation)
    (legible : y.isLegible = true) (ends : Ends rest) :
    assertion x (relation.symbol.toList ++ ' ' :: (y.text.toList ++ rest)) =
      some (.record [("Ord", .list [.text x, .text relation.label, .text y.text])], rest) := by
  have isRead := readsAsObject_text legible rest ends
  cases relation <;> simp [Relation.symbol, assertion, Reader.relation, isRead]

theorem proposition_of_word {name : String} (isWord : isWord name = true) (steps : Nat)
    (rest : List Char) :
    proposition (steps + 1) (name.toList ++ rest) =
      worded (proposition steps) (name.toList ++ rest) := by
  obtain ⟨isSome, inside⟩ := Bool.and_eq_true_iff.mp isWord
  cases isText : name.toList with
  | nil => simp [isText] at isSome
  | cons c others =>
      have isPart : isWordCharacter c = true := List.all_eq_true.mp inside c (by simp [isText])
      rw [List.cons_append, proposition]
      all_goals
        rintro _ ⟨⟩
        exact absurd isPart (by decide)

/-- What is said of an object is found after its text, whether it has a name or not. -/
theorem proposition_object {x : Object} (legible : x.isLegible = true) (steps : Nat)
    (said : List Char) :
    proposition (steps + 1) (x.text.toList ++ ' ' :: said) = assertion x.text said := by
  by_cases unnamed : x.name = ""
  · have number : ∀ text ∈ [x.numberWord], ReadsAsObject text :=
      List.forall_mem_singleton.mpr (readsAsObject_of_isWord x.isWord_numberWord)
    have isRead := applied_of_said "Obj" number said
    rw [Object.text_of_unnamed unnamed, String.toList_append, List.append_assoc,
      toList_argumentText, proposition_of_word (by decide)]
    simp only [worded, word_bracket (show isWord "Obj" = true by decide)]
    exact isRead
  · have isWord : isWord x.name = true := by simpa [Object.isLegible, unnamed] using legible
    rw [Object.text_of_named unnamed, proposition_of_word isWord]
    simp only [worded, word_blank isWord]

end Reader

/-! ## Propositions -/

theorem Proposition.text_binary {left right : Proposition} {connective : Connective}
    (noNegation : ¬(connective = .implies ∧ right = falsum)) :
    (binary left connective right).text =
      connective.word ++ "(" ++ left.text ++ ", " ++ right.text ++ ")" := by
  rw [text]
  rintro rfl rfl
  exact noNegation ⟨rfl, rfl⟩

theorem Connective.isWord_word (connective : Connective) : isWord connective.word = true := by
  cases connective <;> decide

theorem Connective.ofWord_word (connective : Connective) :
    ofWord connective.word = some connective := by
  cases connective <;> decide

theorem Argument.exists_objects {arguments : List Argument}
    (legible : arguments.all isLegible = true) :
    ∃ objects : List Object, arguments = objects.map object ∧
      ∀ x ∈ objects, x.isLegible = true := by
  induction arguments with
  | nil => exact ⟨[], rfl, fun _ member => nomatch member⟩
  | cons argument arguments induction =>
      obtain ⟨ofFirst, ofOthers⟩ := Bool.and_eq_true_iff.mp legible
      obtain ⟨objects, rfl, areLegible⟩ := induction ofOthers
      cases argument with
      | object x => exact ⟨x :: objects, rfl, List.forall_mem_cons.mpr ⟨ofFirst, areLegible⟩⟩
      | set s => cases ofFirst

namespace Reader

theorem proposition_atom {name : String} {arguments : List Argument} {rest : List Char}
    (legible : (Proposition.atom name arguments).isLegible = true) (steps : Nat)
    (ends : Ends rest) :
    proposition (steps + 1) ((Proposition.atom name arguments).text.toList ++ rest) =
      some ((Proposition.atom name arguments).document, rest) := by
  simp only [Proposition.isLegible, Bool.and_eq_true, Bool.or_eq_true] at legible
  obtain ⟨⟨isWord, ofArguments⟩, noConnective⟩ := legible
  obtain ⟨objects, rfl, ofObjects⟩ := Argument.exists_objects ofArguments
  cases objects with
  | nil =>
      have isText : (Proposition.atom name []).text = name := by
        simp [Proposition.text, argumentText]
      rw [List.map_nil, isText, proposition_of_word isWord, worded, word_append isWord ends.word]
      cases rest with
      | nil => rfl
      | cons c rest => rcases ends c rfl with rfl | rfl <;> rfl
  | cons x others =>
      have readAsObjects : ∀ text ∈ x.text :: others.map Object.text, ReadsAsObject text :=
        List.forall_mem_map.mpr fun y member => readsAsObject_text (ofObjects y member)
      have isText : (Proposition.atom name ((x :: others).map .object)).text.toList ++ rest =
          name.toList ++ '(' ::
            ((", ".intercalate (x.text :: others.map Object.text)).toList ++ ')' :: rest) := by
        simp [Proposition.text, argumentText, Argument.text, Function.comp_def]
      have isNone : Connective.ofWord name = none := by simpa using noConnective
      have isDocument : (Proposition.atom name ((x :: others).map .object)).document =
          atom name (x.text :: others.map Object.text) := by
        simp [Proposition.document, Argument.document, atom, Function.comp_def]
      rw [isText, proposition_of_word isWord, isDocument]
      simp only [worded, word_bracket isWord, isNone]
      exact applied_of_ends name readAsObjects ends

section Parts

variable {read : List Char → Option (Document × List Char)} {text rest rest' : List Char}

theorem operands_of_read {left right : Document} {connective : Connective}
    (ofLeft : read text = some (left, ',' :: ' ' :: rest))
    (ofRight : read rest = some (right, ')' :: rest')) :
    operands read connective text = some (binary left connective right, rest') := by
  simp [operands, ofLeft, ofRight]

theorem quantified_of_read {quantifier : Quantifier} {x : String} {body : Document}
    (ofVariable : object text = some (x, ',' :: ' ' :: rest))
    (ofBody : read rest = some (body, rest')) :
    quantified read quantifier text =
      some (.record [("Quant", .list [.text quantifier.label, .text x, body])], rest') := by
  simp [quantified, ofVariable, ofBody]

end Parts

theorem proposition_text {p : Proposition} {steps : Nat} {rest : List Char}
    (legible : p.isLegible = true) (enough : p.text.toList.length < steps) (ends : Ends rest) :
    proposition steps (p.text.toList ++ rest) = some (p.document, rest) := by
  induction p generalizing steps rest with
  | atom name arguments =>
      obtain ⟨steps, rfl⟩ := Nat.exists_eq_add_one_of_ne_zero (Nat.ne_zero_of_lt enough)
      exact proposition_atom legible steps ends
  | falsum =>
      obtain ⟨steps, rfl⟩ := Nat.exists_eq_add_one_of_ne_zero (Nat.ne_zero_of_lt enough)
      simp [Proposition.text, proposition, Proposition.document]
  | binary left connective right leftInduction rightInduction =>
      obtain ⟨steps, rfl⟩ := Nat.exists_eq_add_one_of_ne_zero (Nat.ne_zero_of_lt enough)
      obtain ⟨ofLeft, ofRight⟩ := Bool.and_eq_true_iff.mp legible
      by_cases negation : connective = .implies ∧ right = .falsum
      · obtain ⟨rfl, rfl⟩ := negation
        have isText : (Proposition.binary left .implies .falsum).text.toList ++ rest =
            '¬' :: (left.text.toList ++ rest) := by
          simp [Proposition.text]
        have fewer : left.text.toList.length < steps := by
          have lengths := congrArg List.length isText
          simp only [List.length_append, List.length_cons] at lengths
          omega
        rw [isText, proposition, leftInduction ofLeft fewer ends]
        rfl
      · have isText : (Proposition.binary left connective right).text.toList ++ rest =
            connective.word.toList ++ '(' :: (left.text.toList ++ ',' :: ' ' ::
              (right.text.toList ++ ')' :: rest)) := by
          simp [Proposition.text_binary negation]
        have fewer : left.text.toList.length < steps ∧ right.text.toList.length < steps := by
          have lengths := congrArg List.length isText
          simp only [List.length_append, List.length_cons] at lengths
          omega
        rw [isText, proposition_of_word connective.isWord_word]
        simp only [worded, word_bracket connective.isWord_word, connective.ofWord_word]
        exact operands_of_read (leftInduction ofLeft fewer.1 (ends_comma _))
          (rightInduction ofRight fewer.2 (ends_bracket _))
  | quantified quantifier bound body induction =>
      obtain ⟨steps, rfl⟩ := Nat.exists_eq_add_one_of_ne_zero (Nat.ne_zero_of_lt enough)
      obtain ⟨ofBound, ofBody⟩ := Bool.and_eq_true_iff.mp legible
      have isText : (Proposition.quantified quantifier bound body).text.toList ++ rest =
          quantifier.symbol.toList ++
            (bound.text.toList ++ ',' :: ' ' :: (body.text.toList ++ rest)) := by
        simp [Proposition.text]
      have fewer : body.text.toList.length < steps := by
        have lengths := congrArg List.length isText
        simp only [List.length_append, List.length_cons] at lengths
        omega
      have isRead : quantified (proposition steps) quantifier
          (bound.text.toList ++ ',' :: ' ' :: (body.text.toList ++ rest)) =
          some ((Proposition.quantified quantifier bound body).document, rest) :=
        quantified_of_read (readsAsObject_text ofBound _ (ends_comma _))
          (induction ofBody fewer ends)
      rw [isText]
      cases quantifier with
      | universal => exact isRead
      | existential => exact isRead
  | member element set =>
      obtain ⟨steps, rfl⟩ := Nat.exists_eq_add_one_of_ne_zero (Nat.ne_zero_of_lt enough)
      obtain ⟨ofElement, ofSet⟩ := Bool.and_eq_true_iff.mp legible
      have isText : (Proposition.member element set).text.toList ++ rest =
          element.text.toList ++ ' ' :: '∈' :: ' ' :: (set.name.toList ++ rest) := by
        simp [Proposition.text]
      rw [isText, proposition_object ofElement, assertion_member ofSet ends]
      rfl
  | ordered left relation right =>
      obtain ⟨steps, rfl⟩ := Nat.exists_eq_add_one_of_ne_zero (Nat.ne_zero_of_lt enough)
      obtain ⟨ofLeft, ofRight⟩ := Bool.and_eq_true_iff.mp legible
      have isText : (Proposition.ordered left relation right).text.toList ++ rest =
          left.text.toList ++ ' ' ::
            (relation.symbol.toList ++ ' ' :: (right.text.toList ++ rest)) := by
        simp [Proposition.text]
      rw [isText, proposition_object ofLeft, assertion_ordered relation ofRight ends]
      rfl

/-- The document of a legible proposition can be read off its text. -/
theorem read_text {p : Proposition} (legible : p.isLegible = true) :
    read p.text = some p.document := by
  have atEnd : Ends [] := by simp [Ends]
  have isRead := proposition_text legible (Nat.lt_succ_self _) atEnd
  rw [List.append_nil] at isRead
  rw [read, isRead]

end Reader

/-! ## Documents -/

theorem Connective.label_injective : Function.Injective Connective.label := by
  intro left right
  cases left <;> cases right <;> simp [label]

theorem Quantifier.label_injective : Function.Injective Quantifier.label := by
  intro left right
  cases left <;> cases right <;> simp [label]

theorem Relation.label_injective : Function.Injective Relation.label := by
  intro left right
  cases left <;> cases right <;> simp [label]

namespace Object

variable {x y : Object}

theorem text_of_key (same : x.key = y.key) : x.text = y.text := by
  unfold key at same
  unfold text
  split at same <;> split at same <;> simp_all

theorem id_of_numberWord (same : x.numberWord = y.numberWord) : x.id = y.id := by
  have digits : Nat.toDigits 10 x.id = Nat.toDigits 10 y.id := by
    simpa [numberWord, Nat.repr_eq_ofList_toDigits, ← String.toList_inj] using same
  have values := congrArg (Nat.ofDigitChars 10 · 0) digits
  simpa using values

theorem text_ne_of_isWord {name : String} (unnamed : x.name = "") (isWord : isWord name = true) :
    x.text ≠ name := by
  intro same
  have isBracket : '(' ∈ name.toList := by
    rw [← same, text_of_unnamed unnamed]
    simp [argumentText]
  have inside := List.all_eq_true.mp (Bool.and_eq_true_iff.mp isWord).2 '(' isBracket
  exact absurd inside (by decide)

/-- Texts tell objects apart if no name looks like the text of an unnamed object. -/
theorem key_of_text_of_apart (apart : x.name ≠ "" → y.name = "" → x.name ≠ y.text)
    (apart' : y.name ≠ "" → x.name = "" → y.name ≠ x.text) (same : x.text = y.text) :
    x.key = y.key := by
  by_cases unnamed : x.name = ""
  · by_cases unnamed' : y.name = ""
    · rw [text_of_unnamed unnamed, text_of_unnamed unnamed'] at same
      have sameId : x.id = y.id :=
        id_of_numberWord (by simpa [argumentText, ← String.toList_inj] using same)
      simp [key, unnamed, unnamed', sameId]
    · rw [text_of_named unnamed'] at same
      exact absurd same.symm (apart' unnamed' unnamed)
  · by_cases unnamed' : y.name = ""
    · rw [text_of_named unnamed] at same
      exact absurd same (apart unnamed unnamed')
    · rw [text_of_named unnamed, text_of_named unnamed'] at same
      simp [key, same, unnamed']

/-- Legible objects are told by their texts. -/
theorem key_of_text (legible : x.isLegible = true) (legible' : y.isLegible = true)
    (same : x.text = y.text) : x.key = y.key := by
  have isWord : ∀ {z : Object}, z.isLegible = true → z.name ≠ "" → isWord z.name = true :=
    fun ofZ named => by simpa [isLegible, named] using ofZ
  refine key_of_text_of_apart (fun named unnamed => ?_) (fun named unnamed => ?_) same
  · exact (text_ne_of_isWord unnamed (isWord legible named)).symm
  · exact (text_ne_of_isWord unnamed (isWord legible' named)).symm

end Object

namespace Proposition

variable {p q : Proposition}

theorem isLegible_of_mem_objects (legible : p.isLegible = true) :
    ∀ x ∈ p.objects, x.isLegible = true := by
  induction p with
  | atom name arguments =>
      simp only [isLegible, Bool.and_eq_true, Bool.or_eq_true] at legible
      obtain ⟨objects, rfl, ofObjects⟩ := Argument.exists_objects legible.1.2
      simpa [Proposition.objects, List.flatMap_map, Argument.objects] using ofObjects
  | falsum => simp [objects]
  | binary left connective right leftInduction rightInduction =>
      obtain ⟨ofLeft, ofRight⟩ := Bool.and_eq_true_iff.mp legible
      exact List.forall_mem_append.mpr ⟨leftInduction ofLeft, rightInduction ofRight⟩
  | quantified quantifier bound body induction =>
      obtain ⟨ofBound, ofBody⟩ := Bool.and_eq_true_iff.mp legible
      exact List.forall_mem_cons.mpr ⟨ofBound, induction ofBody⟩
  | member element set =>
      exact List.forall_mem_singleton.mpr (Bool.and_eq_true_iff.mp legible).1
  | ordered left relation right =>
      obtain ⟨ofLeft, ofRight⟩ := Bool.and_eq_true_iff.mp legible
      exact List.forall_mem_cons.mpr ⟨ofLeft, List.forall_mem_singleton.mpr ofRight⟩

/-- The texts of the objects show which of them are equal. -/
def TextsTell (left right : List Object) : Prop :=
  ∀ x ∈ left, ∀ y ∈ right, x.text = y.text → x.key = y.key

theorem TextsTell.mono {left right left' right' : List Object} (tell : TextsTell left right)
    (fewer : left' ⊆ left) (fewer' : right' ⊆ right) : TextsTell left' right' :=
  fun x member y member' => tell x (fewer member) y (fewer' member')

theorem beq_argument_of_document {argument argument' : Argument}
    (tell : TextsTell argument.objects argument'.objects)
    (same : argument.document = argument'.document) : (argument == argument') = true := by
  cases argument with
  | object x =>
      cases argument' with
      | object y =>
          have sameText : x.text = y.text := by simpa [Argument.document] using same
          have sameKey := tell x List.mem_cons_self y List.mem_cons_self sameText
          exact Object.beq_iff_key.mpr sameKey
      | set t => simp [Argument.document] at same
  | set s =>
      cases argument' with
      | object y => simp [Argument.document] at same
      | set t =>
          have sameName : s.name = t.name := by simpa [Argument.document] using same
          exact Collection.beq_iff_name.mpr sameName

theorem beq_arguments_of_document {arguments arguments' : List Argument}
    (tell : TextsTell (arguments.flatMap Argument.objects) (arguments'.flatMap Argument.objects))
    (same : arguments.map Argument.document = arguments'.map Argument.document) :
    (arguments == arguments') = true := by
  induction arguments generalizing arguments' with
  | nil =>
      cases arguments' with
      | nil => rfl
      | cons argument' arguments' => cases same
  | cons argument arguments induction =>
      cases arguments' with
      | nil => cases same
      | cons argument' arguments' =>
          obtain ⟨sameFirst, sameOthers⟩ := List.cons.inj same
          have ofFirst := beq_argument_of_document
            (tell.mono (List.subset_append_left _ _) (List.subset_append_left _ _)) sameFirst
          have ofOthers := induction
            (tell.mono (List.subset_append_right _ _) (List.subset_append_right _ _)) sameOthers
          exact Bool.and_eq_true_iff.mpr ⟨ofFirst, ofOthers⟩

/-- A document shows all of a proposition that equality sees, as far as the texts of objects
show their keys. -/
theorem beq_of_document (tell : TextsTell p.objects q.objects) (same : p.document = q.document) :
    (p == q) = true := by
  induction p generalizing q with
  | atom name arguments =>
      cases q with
      | atom name' arguments' =>
          have parts : name = name' ∧
              arguments.map Argument.document = arguments'.map Argument.document := by
            simpa [document] using same
          exact Bool.and_eq_true_iff.mpr
            ⟨beq_iff_eq.mpr parts.1, beq_arguments_of_document tell parts.2⟩
      | _ => simp [document] at same
  | falsum =>
      cases q with
      | falsum => rfl
      | _ => simp [document] at same
  | binary left connective right leftInduction rightInduction =>
      cases q with
      | binary left' connective' right' =>
          have parts : left.document = left'.document ∧ connective = connective' ∧
              right.document = right'.document := by
            simpa [document, Connective.label_injective.eq_iff] using same
          have ofLeft := leftInduction
            (tell.mono (List.subset_append_left _ _) (List.subset_append_left _ _)) parts.1
          have ofRight := rightInduction
            (tell.mono (List.subset_append_right _ _) (List.subset_append_right _ _)) parts.2.2
          exact Bool.and_eq_true_iff.mpr
            ⟨Bool.and_eq_true_iff.mpr ⟨beq_iff_eq.mpr parts.2.1, ofLeft⟩, ofRight⟩
      | _ => simp [document] at same
  | quantified quantifier bound body induction =>
      cases q with
      | quantified quantifier' bound' body' =>
          have parts : quantifier = quantifier' ∧ bound.text = bound'.text ∧
              body.document = body'.document := by
            simpa [document, Quantifier.label_injective.eq_iff] using same
          have ofBound := tell bound List.mem_cons_self bound' List.mem_cons_self parts.2.1
          have ofBody := induction
            (tell.mono (List.subset_cons_self _ _) (List.subset_cons_self _ _)) parts.2.2
          exact Bool.and_eq_true_iff.mpr ⟨Bool.and_eq_true_iff.mpr
            ⟨beq_iff_eq.mpr parts.1, Object.beq_iff_key.mpr ofBound⟩, ofBody⟩
      | _ => simp [document] at same
  | member element set =>
      cases q with
      | member element' set' =>
          have parts : element.text = element'.text ∧ set.name = set'.name := by
            simpa [document] using same
          have ofElement := tell element List.mem_cons_self element' List.mem_cons_self parts.1
          exact Bool.and_eq_true_iff.mpr
            ⟨Object.beq_iff_key.mpr ofElement, Collection.beq_iff_name.mpr parts.2⟩
      | _ => simp [document] at same
  | ordered left relation right =>
      cases q with
      | ordered left' relation' right' =>
          have parts : left.text = left'.text ∧ relation = relation' ∧
              right.text = right'.text := by
            simpa [document, Relation.label_injective.eq_iff] using same
          have ofLeft := tell left List.mem_cons_self left' List.mem_cons_self parts.1
          have ofRight := tell right (by simp [objects]) right' (by simp [objects]) parts.2.2
          exact Bool.and_eq_true_iff.mpr ⟨Bool.and_eq_true_iff.mpr
            ⟨beq_iff_eq.mpr parts.2.1, Object.beq_iff_key.mpr ofLeft⟩,
              Object.beq_iff_key.mpr ofRight⟩
      | _ => simp [document] at same

/-! ## Texts of equal propositions -/

theorem argumentText_of_beq {argument argument' : Argument}
    (equal : (argument == argument') = true) : argument.text = argument'.text := by
  rcases Argument.cases_of_beq equal with ⟨x, y, rfl, rfl, sameKey⟩ | ⟨s, t, rfl, rfl, sameName⟩
  · exact Object.text_of_key sameKey
  · exact sameName

theorem falsum_iff_of_beq (equal : (p == q) = true) : p = falsum ↔ q = falsum := by
  constructor
  · rintro rfl
    exact eq_of_falsum_beq equal
  · rintro rfl
    cases p with
    | falsum => rfl
    | _ => cases equal

/-- Texts show no more of a proposition than equality sees, whatever its names are. -/
theorem text_of_beq (equal : (p == q) = true) : p.text = q.text := by
  induction p generalizing q with
  | atom name arguments =>
      obtain ⟨arguments', rfl, ofArguments⟩ := eq_of_atom_beq equal
      rw [text, text, Argument.map_eq_of_beq argumentText_of_beq ofArguments]
  | falsum => rw [eq_of_falsum_beq equal]
  | binary left connective right leftInduction rightInduction =>
      obtain ⟨left', right', rfl, ofLeft, ofRight⟩ := eq_of_binary_beq equal
      have sameLeft := leftInduction ofLeft
      by_cases negation : connective = .implies ∧ right = .falsum
      · obtain ⟨rfl, rfl⟩ := negation
        rw [eq_of_falsum_beq ofRight, text, text, sameLeft]
      · have noNegation : ¬(connective = .implies ∧ right' = .falsum) := by
          rwa [← falsum_iff_of_beq ofRight]
        rw [text_binary negation, text_binary noNegation, sameLeft, rightInduction ofRight]
  | quantified quantifier bound body induction =>
      obtain ⟨bound', body', rfl, ofBound, ofBody⟩ := eq_of_quantified_beq equal
      rw [text, text, Object.text_of_key ofBound, induction ofBody]
  | member element set =>
      obtain ⟨element', set', rfl, ofElement, ofSet⟩ := eq_of_member_beq equal
      rw [text, text, Object.text_of_key ofElement, ofSet]
  | ordered left relation right =>
      obtain ⟨left', right', rfl, ofLeft, ofRight⟩ := eq_of_ordered_beq equal
      rw [text, text, Object.text_of_key ofLeft, Object.text_of_key ofRight]

/-- Legible propositions are equal exactly if they have the same text. -/
theorem beq_iff_text_of_isLegible (legible : p.isLegible = true) (legible' : q.isLegible = true) :
    (p == q) = true ↔ p.text = q.text := by
  constructor
  · exact text_of_beq
  · intro same
    have sameDocument : p.document = q.document := by
      have isRead := Reader.read_text legible
      rw [same, Reader.read_text legible'] at isRead
      exact (Option.some.inj isRead).symm
    have tell : TextsTell p.objects q.objects := fun x member y member' =>
      Object.key_of_text (isLegible_of_mem_objects legible x member)
        (isLegible_of_mem_objects legible' y member')
    exact beq_of_document tell sameDocument

/-- An atom that is written like the unnamed object the other operand speaks of. -/
def lookalike (x : Object) : Proposition :=
  (quantified .existential x ((atom "Obj" [.object x]).implies falsum)).and
    (member ⟨1, "", none, []⟩ (.plain 0 "S"))

theorem beq_iff_text_lookalike :
    (lookalike ⟨7, "e_1", none, []⟩).isLegible = true ∧
      (lookalike ⟨1, "", none, []⟩).isLegible = true ∧
      (lookalike ⟨7, "e_1", none, []⟩).text = "And(∃e_1, ¬Obj(e_1), Obj(e_1) ∈ S)" ∧
      ((lookalike ⟨7, "e_1", none, []⟩ == lookalike ⟨1, "", none, []⟩) = true ↔
        (lookalike ⟨7, "e_1", none, []⟩).text = (lookalike ⟨1, "", none, []⟩).text) :=
  ⟨by decide, by decide, by decide, beq_iff_text_of_isLegible (by decide) (by decide)⟩

end Proposition

end Deduction
