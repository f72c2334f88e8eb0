import Deduction.Text

/-! # Flaws of patterns

Why a text cannot be read as a pattern, and how this is shown: the text is
printed with marks below the characters at fault. -/

namespace Deduction.Pattern

/-- The characters from the place `first` up to the place `past`. -/
structure Span where
  first : Nat
  past : Nat

inductive Reason where
  | setEscapeInvalid
  | setRangeInvalid
  | setRangeLiteral
  | setUnclosed
  | decimalInvalid
  | hexEmpty
  | hexInvalid
  | hexInvalidDigit
  | escapeUnexpectedEnd
  | escapeUnrecognized
  | flagDanglingNegation
  | flagDuplicate
  | flagRepeatedNegation
  | flagUnexpectedEnd
  | flagUnrecognized
  | groupNameDuplicate
  | groupNameEmpty
  | groupNameInvalid
  | groupNameUnexpectedEnd
  | groupUnclosed
  | groupUnopened
  | nestingTooDeep (limit : Nat)
  | countInvalid
  | countDecimalEmpty
  | countUnclosed
  | repetitionMissing
  | wordBoundaryUnclosed
  | wordBoundaryUnrecognized
  | wordBoundaryUnexpectedEnd
  | propertyInvalid
  | backreference
  | lookAround
  | unicodeNotAllowed
  | invalidEncoding
  | propertyNotFound
  | propertyValueNotFound
  | shorthandNotFound
  | caseUnavailable

def Reason.text : Reason → String
  | setEscapeInvalid => "invalid escape sequence found in character class"
  | setRangeInvalid => "invalid character class range, the start must be <= the end"
  | setRangeLiteral => "invalid range boundary, must be a literal"
  | setUnclosed => "unclosed character class"
  | decimalInvalid => "decimal literal invalid"
  | hexEmpty => "hexadecimal literal empty"
  | hexInvalid => "hexadecimal literal is not a Unicode scalar value"
  | hexInvalidDigit => "invalid hexadecimal digit"
  | escapeUnexpectedEnd => "incomplete escape sequence, reached end of pattern prematurely"
  | escapeUnrecognized => "unrecognized escape sequence"
  | flagDanglingNegation => "dangling flag negation operator"
  | flagDuplicate => "duplicate flag"
  | flagRepeatedNegation => "flag negation operator repeated"
  | flagUnexpectedEnd => "expected flag but got end of regex"
  | flagUnrecognized => "unrecognized flag"
  | groupNameDuplicate => "duplicate capture group name"
  | groupNameEmpty => "empty capture group name"
  | groupNameInvalid => "invalid capture group character"
  | groupNameUnexpectedEnd => "unclosed capture group name"
  | groupUnclosed => "unclosed group"
  | groupUnopened => "unopened group"
  | nestingTooDeep limit =>
      "exceed the maximum number of nested parentheses/brackets (" ++ toString limit ++ ")"
  | countInvalid => "invalid repetition count range, the start must be <= the end"
  | countDecimalEmpty => "repetition quantifier expects a valid decimal"
  | countUnclosed => "unclosed counted repetition"
  | repetitionMissing => "repetition operator missing expression"
  | wordBoundaryUnclosed =>
      "special word boundary assertion is either unclosed or contains an invalid character"
  | wordBoundaryUnrecognized =>
      "unrecognized special word boundary assertion, valid choices are: " ++
        "start, end, start-half or end-half"
  | wordBoundaryUnexpectedEnd =>
      "found either the beginning of a special word boundary or a bounded repetition " ++
        "on a \\b with an opening brace, but no closing brace"
  | propertyInvalid => "invalid Unicode character class"
  | backreference => "backreferences are not supported"
  | lookAround => "look-around, including look-ahead and look-behind, is not supported"
  | unicodeNotAllowed => "Unicode not allowed here"
  | invalidEncoding => "pattern can match invalid UTF-8"
  | propertyNotFound => "Unicode property not found"
  | propertyValueNotFound => "Unicode property value not found"
  | shorthandNotFound =>
      "Unicode-aware Perl class not found (make sure the unicode-perl feature is enabled)"
  | caseUnavailable =>
      "Unicode-aware case insensitivity matching is not available " ++
        "(make sure the unicode-case feature is enabled)"

/-- The field `other` is a second place to mark, where the trouble began. -/
structure Flaw where
  reason : Reason
  span : Span
  other : Option Span := none

/-! ## Marks

A text of one line is indented; several lines are numbered. -/

namespace Flaw

/-- The line of a place and its column there, both counted from one. -/
def lineAndColumn (text : List Char) (place : Nat) : Nat × Nat :=
  (text.take place).foldl
    (fun found c => if c = '\n' then (found.1 + 1, 1) else (found.1, found.2 + 1)) (1, 1)

def blanks (count : Nat) : String :=
  String.ofList (List.replicate count ' ')

/-- The marks below a line for spans given by their columns. -/
def marks (columns : List (Nat × Nat)) : String :=
  String.ofList (columns.foldl
    (fun line span =>
      line ++ List.replicate (span.1 - 1 - line.length) ' ' ++
        List.replicate (max 1 (span.2 - span.1)) '^') [])

def spans (flaw : Flaw) : List Span :=
  match flaw.other with
  | none => [flaw.span]
  | some other => if other.first ≤ flaw.span.first then [other, flaw.span] else [flaw.span, other]

/-- The columns of the spans that lie within a line. -/
def columnsOn (flaw : Flaw) (text : List Char) (line : Nat) : List (Nat × Nat) :=
  flaw.spans.filterMap fun span =>
    let first := lineAndColumn text span.first
    let past := lineAndColumn text span.past
    if first.1 = line ∧ past.1 = line then some (first.2, past.2) else none

def padded (width number : Nat) : String :=
  blanks (width - (toString number).length) ++ toString number

/-- A line with the marks that belong to it. -/
def markedLine (flaw : Flaw) (text : List Char) (numberWidth line : Nat) (content : String) :
    String :=
  let columns := flaw.columnsOn text line
  let margin := if numberWidth = 0 then "    " else padded numberWidth line ++ ": "
  margin ++ content ++ "\n" ++
    if columns.isEmpty then "" else blanks margin.length ++ marks columns ++ "\n"

def markedLines (flaw : Flaw) (text : List Char) (numberWidth : Nat) :
    Nat → List String → String
  | _, [] => ""
  | line, content :: rest =>
      flaw.markedLine text numberWidth line content ++
        markedLines flaw text numberWidth (line + 1) rest

/-- Spans that run over several lines are told rather than marked. -/
def crossings (flaw : Flaw) (text : List Char) : List String :=
  flaw.spans.filterMap fun span =>
    let first := lineAndColumn text span.first
    let past := lineAndColumn text span.past
    if first.1 = past.1 then
      none
    else
      some ("on line " ++ toString first.1 ++ " (column " ++ toString first.2 ++
        ") through line " ++ toString past.1 ++ " (column " ++ toString (past.2 - 1) ++ ")\n")

/-- The lines to be printed. A carriage return before a line feed is left out, and
so is an empty last line. -/
def printedLines : List (List Char) → List String
  | [] => []
  | [line] => if line.isEmpty then [] else [String.ofList line]
  | line :: lines =>
      let content := if line.getLast? = some '\r' then line.dropLast else line
      String.ofList content :: printedLines lines

def report (flaw : Flaw) (text : List Char) : String :=
  let lines := Text.split '\n' text
  let divider := String.ofList (List.replicate 79 '~') ++ "\n"
  let shown :=
    if text.contains '\n' then
      let numberWidth := (toString lines.length).length
      divider ++ flaw.markedLines text numberWidth 1 (printedLines lines) ++ divider ++
        String.join (flaw.crossings text)
    else
      flaw.markedLines text 0 1 (printedLines lines)
  "regex parse error:\n" ++ shown ++ "error: " ++ flaw.reason.text

end Flaw

end Deduction.Pattern
