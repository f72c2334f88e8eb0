import Deduction.Event
import Deduction.Pattern.Matching
import Deduction.Pattern.Meaning

/-! # Filters of events

Which events the program shows is written as directives with commas between
them, such as `info,source=debug`, and optionally, after a slash, a pattern that
has to occur in the message. -/

namespace Deduction.CommandLine

/-- A directive sets the threshold for the events whose source begins with its
target, or for all events if it has none. -/
structure Directive where
  target : Option String
  threshold : Level.Threshold

structure LogFilter where
  directives : List Directive
  pattern : Option Pattern

/-! ## Complaints -/

/-- What of a filter could not be read. It is left out of the filter. -/
inductive Complaint where
  | tooManySlashes (filter : String)
  | unreadable (directive : String)
  | refused (refusal : Pattern.Refusal) (pattern : List Char)

def Complaint.line : Complaint → String
  | tooManySlashes filter =>
      "warning: invalid logging spec '" ++ filter ++ "', ignoring it (too many '/'s)\n"
  | unreadable directive => "warning: invalid logging spec '" ++ directive ++ "', ignoring it\n"
  | refused refusal pattern =>
      "warning: invalid regex filter - " ++ refusal.message pattern ++ "\n"

/-! ## Directives -/

namespace Directive

/-- A level alone applies to all events, and a target alone shows all of its
events. -/
def read (text : List Char) : Except Complaint Directive :=
  match Text.split '=' text with
  | [name] =>
      match Level.Threshold.ofName? (String.ofList name) with
      | some threshold => .ok ⟨none, threshold⟩
      | none => .ok ⟨some (String.ofList name), some .trace⟩
  | [target, name] =>
      let name := String.ofList (Text.trimmed name)
      if name = "" then
        .ok ⟨some (String.ofList target), some .trace⟩
      else
        match Level.Threshold.ofName? name with
        | some threshold => .ok ⟨some (String.ofList target), threshold⟩
        | none => .error (.unreadable name)
  | _ => .error (.unreadable (String.ofList text))

/-- A directive takes the place of an earlier one for the same target. -/
def insert (directive : Directive) : List Directive → List Directive
  | [] => [directive]
  | first :: rest =>
      if first.target = directive.target then directive :: rest
      else first :: insert directive rest

def covers (directive : Directive) (source : String) : Bool :=
  match directive.target with
  | some target => target.toList.isPrefixOf source.toList
  | none => true

def specificity (directive : Directive) : Nat :=
  (directive.target.getD "").utf8ByteSize

/-- Of two directives the more specific one, or the later one. -/
def prefer (earlier : Option Directive) (later : Directive) : Option Directive :=
  match earlier with
  | none => some later
  | some earlier =>
      if earlier.specificity ≤ later.specificity then some later else some earlier

/-- The directives of a text, together with the complaints about the others. -/
def readAll (text : List Char) : List Directive × List Complaint :=
  let pieces := ((Text.split ',' text).map Text.trimmed).filter fun piece => !piece.isEmpty
  pieces.foldl
    (fun (directives, complaints) piece =>
      match read piece with
      | .ok directive => (directive.insert directives, complaints)
      | .error complaint => (directives, complaints ++ [complaint]))
    ([], [])

end Directive

/-! ## Filters -/

namespace LogFilter

/-- Without any directive only errors are shown. -/
def ofDirectives (directives : List Directive) (pattern : Option Pattern) : LogFilter where
  directives := if directives.isEmpty then [⟨none, some .error⟩] else directives
  pattern := pattern

def read (text : String) : LogFilter × List Complaint :=
  match Text.split '/' text.toList with
  | [directives] =>
      let (directives, complaints) := Directive.readAll directives
      (ofDirectives directives none, complaints)
  | [directives, pattern] =>
      let (directives, complaints) := Directive.readAll directives
      match Pattern.read pattern with
      | .ok found => (ofDirectives directives (some found), complaints)
      | .error refusal =>
          (ofDirectives directives none, complaints ++ [.refused refusal pattern])
  | _ => (ofDirectives [] none, [.tooManySlashes text])

def governing (filter : LogFilter) (source : String) : Option Directive :=
  (filter.directives.filter (·.covers source)).foldl Directive.prefer none

def threshold (filter : LogFilter) (source : String) : Level.Threshold :=
  (filter.governing source).bind (·.threshold)

def admits (filter : LogFilter) (event : Event) : Bool :=
  (filter.threshold event.source).admits event.level &&
    filter.pattern.all (·.occursIn event.message)

end LogFilter

end Deduction.CommandLine
