import Deduction.Pattern
import Deduction.Pattern.Encoding

/-! # Patterns that amount to words

A pattern that matches a few words and nothing else is searched for word by word
and needs no automaton. The words are collected within limits: a word that may go
on is not whole, and what begins with too many words has no vocabulary. -/

namespace Deduction.Pattern

/-- A word by its bytes, the last one first. -/
structure Word where
  bytes : List Nat
  isWhole : Bool := true
  deriving DecidableEq

namespace Word

/-- The first bytes of a word. -/
def shortened (word : Word) (length : Nat) : Word :=
  if word.bytes.length ≤ length then word
  else { bytes := word.bytes.drop (word.bytes.length - length), isWhole := false }

def opened (word : Word) : Word :=
  { word with isWhole := false }

def followedBy (first second : Word) : Word :=
  { bytes := second.bytes ++ first.bytes, isWhole := second.isWhole }

/-- Holds if the other word begins with the word. -/
def begins (word other : Word) : Bool :=
  word.bytes.isSuffixOf other.bytes

end Word

/-- The words that a match may begin with, in order of preference. -/
abbrev Vocabulary := Option (List Word)

def characterLimit : Nat := 10

def copyLimit : Nat := 10

def lengthLimit : Nat := 100

def wordLimit : Nat := 250

/-- The words are cut to this length if there are too many of them. -/
def crowdedLength : Nat := 4

/-- Words that are repeated at once are taken together. -/
def mergeRepeats : List Word → List Word
  | [] => []
  | word :: words =>
      match mergeRepeats words with
      | [] => [word]
      | next :: rest =>
          if word.bytes = next.bytes then
            { word with isWhole := word.isWhole && next.isWhole } :: rest
          else
            word :: next :: rest

namespace Vocabulary

def nothing : Vocabulary :=
  some [{ bytes := [] }]

/-- Nothing can be added to words none of which is whole. -/
def isClosed : Vocabulary → Bool
  | none => true
  | some words => words.all (!·.isWhole)

def opened (vocabulary : Vocabulary) : Vocabulary :=
  vocabulary.map fun words => words.map Word.opened

def followedBy (first second : Vocabulary) : Vocabulary :=
  match first with
  | none => none
  | some words =>
      match second.filter fun later => words.length * later.length ≤ wordLimit with
      | none => if words.any (·.bytes.isEmpty) then none else some (words.map Word.opened)
      | some later =>
          let joined := words.flatMap fun word =>
            if word.isWhole then later.map word.followedBy else [word]
          some ((mergeRepeats joined).map (Word.shortened · lengthLimit))

def or (left right : Vocabulary) : Vocabulary :=
  match left, right with
  | some words, some others =>
      if words.length + others.length ≤ wordLimit then
        some (mergeRepeats (words ++ others))
      else
        let words := mergeRepeats (words.map (Word.shortened · crowdedLength))
        let others := mergeRepeats (others.map (Word.shortened · crowdedLength))
        if words.length + others.length ≤ wordLimit then some (mergeRepeats (words ++ others))
        else none
  | _, _ => none

/-- So many copies in a row. -/
def copies (vocabulary : Vocabulary) : Nat → Vocabulary → Vocabulary
  | 0, before => before
  | count + 1, before =>
      if before.isClosed then before else vocabulary.copies count (before.followedBy vocabulary)

def repeated (vocabulary : Vocabulary) (least : Nat) (most : Option Nat) (isLazy : Bool) :
    Vocabulary :=
  if least = 0 then
    let once := if most = some 1 then vocabulary else vocabulary.opened
    if isLazy then nothing.or once else once.or nothing
  else
    let needed := vocabulary.copies (min least copyLimit) nothing
    if most = some least ∧ least ≤ copyLimit then needed else needed.opened

end Vocabulary

def Word.ofCharacters (characters : List Char) : Word :=
  { bytes := (characters.flatMap encodedBytes).reverse }

def setVocabulary (set : CharacterSet) : Vocabulary :=
  let count := set.ranges.foldl (fun count range => count + (range.2 + 1 - range.1)) 0
  if count ≤ characterLimit then
    some (set.ranges.flatMap fun range =>
      (List.range (range.2 + 1 - range.1)).map fun place =>
        Word.ofCharacters [Char.ofNat (range.1 + place)])
  else
    none

mutual

def vocabulary : Pattern → Vocabulary
  | .empty => .nothing
  | .literal characters => some [(Word.ofCharacters characters).shortened lengthLimit]
  | .one set _ => setVocabulary set
  | .assertion _ _ => .nothing
  | .repeated body least most isLazy => (vocabulary body).repeated least most isLazy
  | .captured _ body => vocabulary body
  | .sequence parts => vocabularyInTurn .nothing parts
  | .either branches => vocabularyOfAny (some []) branches

def vocabularyInTurn (before : Vocabulary) : List Pattern → Vocabulary
  | [] => before
  | part :: parts =>
      if before.isClosed then before
      else vocabularyInTurn (before.followedBy (vocabulary part)) parts

def vocabularyOfAny (before : Vocabulary) : List Pattern → Vocabulary
  | [] => before
  | branch :: branches =>
      if before.isNone then none
      else vocabularyOfAny (before.or (vocabulary branch)) branches

end

/-! ## Searching for words

The words are searched for together. If they have something in common, or if there
are many of them, it can be better to search for what they begin with, and then
an automaton has to do the rest. -/

/-- Words that begin with an earlier one are never found. -/
def preferred (kept : List Word) : List Word → List Word
  | [] => kept.reverse
  | word :: words =>
      if kept.any (·.begins word) then preferred kept words
      else preferred (word :: kept) words

def commonBytes : List Nat → List Nat → List Nat
  | byte :: bytes, byte' :: bytes' => if byte = byte' then byte :: commonBytes bytes bytes' else []
  | _, _ => []

def commonStart : List Word → List Nat
  | [] => []
  | word :: words =>
      words.foldl (fun start word => commonBytes start word.bytes.reverse) word.bytes.reverse

def isFrequent (byte : Nat) : Bool :=
  0xC0 ≤ byte ||
    "\n\r (),-./0129:_abcdefghilmnoprstuvxy|".toList.any fun c => c.toNat = byte

/-- The lengths to which words are cut in turn, each if there are more than so many
words. -/
def cuts : List (Nat × Nat) :=
  [(5, 10), (4, 10), (3, 64), (2, 64), (1, 10)]

def cutWords : List (Nat × Nat) → List Word → List Word
  | [], words => words
  | (length, count) :: rest, words =>
      if words.length ≤ count then words
      else cutWords rest (preferred [] (words.map (Word.shortened · length)))

/-- Cut words are searched for if they are not too short and not too many. -/
def isCutWorthwhile (words : List Word) : Bool :=
  words.length ≤ 64 && words.all (2 < ·.bytes.length)

/-- Holds if the words are searched for as a whole. -/
def areSearchedWhole (words : List Word) : Bool :=
  let kept := preferred [] words
  let start := commonStart kept
  let isFast := kept.length ≤ 16
  if !kept.all (·.isWhole) then
    false
  else if 1 < words.length && start.length ≤ 3 && (start.head?.any (!isFrequent ·)) then
    kept.all (·.bytes.length ≤ 1)
  else if 4 < start.length || (1 < start.length && !isFast) then
    kept.length = 1
  else
    let cut := cutWords cuts kept
    !isCutWorthwhile cut || cut.all (·.isWhole)

mutual

/-- Holds if the pattern captures text or asserts anything about a place. -/
def observes : Pattern → Bool
  | .assertion _ _ => true
  | .captured _ _ => true
  | .repeated body _ _ _ => observes body
  | .sequence parts => anyObserves parts
  | .either branches => anyObserves branches
  | .empty => false
  | .literal _ => false
  | .one _ _ => false

def anyObserves : List Pattern → Bool
  | [] => false
  | pattern :: patterns => observes pattern || anyObserves patterns

end

def amountsToWords (pattern : Pattern) : Bool :=
  !pattern.observes &&
    match pattern.vocabulary with
    | none => false
    | some words =>
        !words.isEmpty && words.all (!·.bytes.isEmpty) && areSearchedWhole words

end Deduction.Pattern
