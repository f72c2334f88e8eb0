import Deduction.Session.Reply

/-! # Sessions

A session holds values in variables and follows instructions one at a time. A
set exists as long as a variable reaches it: through the sets it is formed of, a
proposition, a proof, a schema, a reduction or a cursor. -/

namespace Deduction

/-- A variable with its value and the sets that the value refers to. -/
structure Session.Entry where
  name : String
  item : Session.Item
  sets : List SetId

structure Session where
  store : Store
  entries : List Session.Entry

namespace Session

def start : Session where
  store := .empty
  entries := []

def lookup (session : Session) (name : String) : Option Item :=
  (session.entries.find? fun entry => entry.name == name).map Entry.item

def erase (session : Session) (name : String) : Session :=
  { session with entries := session.entries.filter fun entry => entry.name != name }

def assign (session : Session) (name : String) (item : Item) : Session :=
  let others := session.erase name
  { others with entries := ⟨name, item, item.mentioned.eraseDups⟩ :: others.entries }

/-- Let the sets that no variable reaches cease to exist. -/
def collect (session : Session) : Session :=
  if session.store.living.isEmpty then
    session
  else
    let sets := Std.HashSet.ofList (session.entries.flatMap Entry.sets)
    { session with store := session.store.retain (session.store.reached sets).contains }

/-! ## Evaluation -/

/-- An instruction is refused by the kernel or because an operand is amiss. -/
inductive Refusal where
  | fault (fault : Fault)
  | unreadable

abbrev Evaluation := ExceptT Refusal (StateM Session)

def perform {α : Type} (action : Kernel α) : Evaluation α := do
  let session ← get
  let (result, store) := action.run.run session.store
  set { session with store }
  match result with
  | .ok value => return value
  | .error fault => throw (.fault fault)

def refuse {α : Type} : Evaluation α :=
  throw .unreadable

/-! ## Operands -/

/-- A word that was understood. -/
def readWord {α : Type} (word : Option α) : Evaluation α :=
  match word with
  | some meaning => return meaning
  | none => refuse

def readName (name : VariableName) : Evaluation String :=
  readWord name

def readItem (name : VariableName) : Evaluation Item := do
  match (← get).lookup (← readName name) with
  | some item => return item
  | none => refuse

def readSet (name : VariableName) : Evaluation Collection := do
  match ← readItem name with
  | .set s => return s
  | _ => refuse

def readProof (name : VariableName) : Evaluation Proof := do
  match ← readItem name with
  | .proof p => return p
  | _ => refuse

def readCursor (name : VariableName) : Evaluation Cursor := do
  match ← readItem name with
  | .cursor c => return c
  | _ => refuse

def readReduction (name : VariableName) : Evaluation Reduction := do
  match ← readItem name with
  | .reduction r => return r
  | _ => refuse

/-- A schema, or the schema that a reduction has come to. -/
def readSchema (name : VariableName) : Evaluation Schema := do
  match ← readItem name with
  | .schema s => return s
  | .reduction (.unfinished s) => return s
  | _ => refuse

/-- An object or a set. -/
def readArgument : ObjectOperand → Evaluation Argument
  | .named name => do
      match ← readItem (some name) with
      | .object x => return .object x
      | .set s => return .set s
      | _ => refuse
  | .created name => return .object (← perform (Kernel.object name))
  | .createdIn name set => do
      let set ← readSet set
      return .object (← perform (Kernel.objectIn name set))
  | .unreadable => refuse

def readObject (operand : ObjectOperand) : Evaluation Object := do
  match ← readArgument operand with
  | .object x => return x
  | .set _ => refuse

/-- A proposition, or the one that a proof or a finished reduction is about. -/
def readStatement (name : String) : Evaluation Proposition := do
  match ← readItem (some name) with
  | .proposition p => return p
  | .proof p => return p.conclusion
  | .reduction r =>
      match r.statement with
      | some p => return p
      | none => refuse
  | _ => refuse

def readProposition : PropositionOperand → Evaluation Proposition
  | .named name => readStatement name
  | .atom name arguments => return .atom name (← arguments.mapM readArgument)
  | .falsum => return .falsum
  | .not p => return (← readProposition p).not
  | .binary left connective right => do
      let left ← readProposition left
      let right ← readProposition right
      return .binary left connective right
  | .quantified quantifier bound body => do
      let bound ← readObject bound
      let body ← readProposition body
      return .quantified quantifier bound body
  | .member element set => do
      let element ← readObject element
      let set ← readSet set
      return .member element set
  | .ordered left relation right => do
      let left ← readObject left
      let relation ← readWord relation
      let right ← readObject right
      return .ordered left relation right
  | .unreadable => refuse

/-- A part of a composite schema. -/
def readPart (operand : PropositionOperand) : Evaluation Schema := do
  match operand with
  | .named name =>
      match ← readItem (some name) with
      | .schema s => return s
      | .reduction r => return r.part
      | _ => return .settled (← readStatement name)
  | _ => return .settled (← readProposition operand)

def readMapping : MappingOperand → Evaluation Mapping
  | .onDemand => return .onDemand
  | .plus summand => return .plus (← readObject summand)
  | .minus subtrahend => return .minus (← readObject subtrahend)
  | .constant value => return .constant (← readObject value)
  | .identity => return .identity
  | .pair => return .pair
  | .compose outer inner => do
      let outer ← readSet outer
      let inner ← readSet inner
      return .compose outer inner
  | .unreadable => refuse

def makeSchema (name : String) : SchemaOperand → Evaluation Schema
  | .generic parameters => return .generic name parameters
  | .membership => return .membership name
  | .ordering relation => return .ordering name relation
  | .subset => return .subset name
  | .combine left connective right => do
      let left ← readPart left
      let right ← readPart right
      return .combine name left (← readWord connective) right
  | .quantify quantifier variableName inner => do
      let inner ← readPart inner
      return .quantify name quantifier variableName inner
  | .unreadable => refuse

def readBindings (bindings : BindingOperands) : Evaluation Bindings :=
  bindings.mapM fun binding => do
    let (parameter, operand) ← readWord binding
    match operand with
    | some operand => return (parameter, some (← readArgument operand))
    | none => return (parameter, none)

/-! ## Commands -/

/-- What a command shows, and the values it gives to variables, in this order. -/
structure Outcome where
  reply : Reply
  results : List (VariableName × Item) := []

/-- Show a value and give it to a variable. -/
def yield (name : VariableName) (item : Item) : Evaluation Outcome := do
  return { reply := showItem (← get).store item, results := [(name, item)] }

def answer (reply : Reply) : Evaluation Outcome :=
  return { reply }

def evaluate (instruction : Instruction) : Evaluation Outcome := do
  let first := instruction.first
  let second := instruction.second
  match instruction.command with
  | .object name => yield first (.object (← perform (Kernel.object name)))
  | .objectIn name set =>
      let set ← readSet set
      yield first (.object (← perform (Kernel.objectIn name set)))
  | .tuple components =>
      let components ← components.mapM readObject
      yield first (.object (← perform (Kernel.tuple components)))
  | .calculate operation x y =>
      let x ← readObject x
      let y ← readObject y
      yield first (.object (← perform (Kernel.calculate operation x y)))
  | .compareObjects x y =>
      let x ← readObject x
      let y ← readObject y
      answer (.identity (x == y) (x.same y) (x.key == y.key))
  | .plainSet name => yield first (.set (← perform (Kernel.plainSet name)))
  | .productSet factors name =>
      let factors ← factors.mapM readSet
      yield first (.set (← perform (Kernel.productSet name factors)))
  | .functionSet domain range name mapping =>
      let domain ← readSet domain
      let range ← readSet range
      let mapping ← readMapping mapping
      yield first (.set (← perform (Kernel.functionSet name domain range mapping)))
  | .numberSets naturals rationals reals =>
      let naturals ← readName naturals
      let rationals ← readName rationals
      let reals ← readName reals
      let numbers ← perform Kernel.numberSets
      return {
        reply := .sets
          [viewSet numbers.naturals, viewSet numbers.rationals, viewSet numbers.reals]
        results := [(naturals, .set numbers.naturals), (rationals, .set numbers.rationals),
          (reals, .set numbers.reals)] }
  | .literal naturals rationals reals name =>
      let naturals ← readSet naturals
      let rationals ← readSet rationals
      let reals ← readSet reals
      match ← perform (Kernel.literal ⟨naturals, rationals, reals⟩ name) with
      | some x => yield first (.object x)
      | none => answer .noLiteral
  | .contains set x =>
      let set ← readSet set
      let x ← readObject x
      answer (.contains ((← get).store.contains set x))
  | .includes larger smaller =>
      let larger ← readSet larger
      let smaller ← readSet smaller
      answer (.includes (larger.includes smaller))
  | .compareSets left right =>
      let left ← readSet left
      let right ← readSet right
      answer (.identity (left == right) (left.same right) (left.name == right.name))
  | .insert set x =>
      let set ← readSet set
      let x ← readObject x
      perform (Kernel.insert set x)
      let members := (← get).store.members set.id
      answer (.members (if set.numberKind.isSome then none else some (members.map Object.text)))
  | .enumerate set =>
      let set ← readSet set
      yield first (.cursor (← perform (Kernel.enumerate set)))
  | .next name count =>
      let cursor ← readCursor name
      let name ← readName name
      let (objects, cursor) ← perform (Kernel.take count cursor)
      modify fun session => session.assign name (.cursor cursor)
      let store := (← get).store
      return {
        reply := .items (objects.map (viewObject store))
        results := objects.getLast?.toList.map fun x => (first, .object x) }
  | .apply function x =>
      let function ← readSet function
      let x ← readObject x
      yield first (.object (← perform (Kernel.apply function x)))
  | .proposition p => yield first (.proposition (← readProposition p))
  | .comparePropositions left right =>
      let left ← readProposition left
      let right ← readProposition right
      answer (.agreement (left == right) (left.text == right.text))
  | .substitute p old new =>
      let p ← readProposition p
      let old ← readObject old
      let new ← readObject new
      yield first (.proposition (← perform (Kernel.substitute p old new)))
  | .occurs p x =>
      let p ← readProposition p
      let x ← readObject x
      answer (.occurs (p.occurs x))
  | .negated p =>
      match (← readProposition p).negated with
      | some p => yield first (.proposition p)
      | none => answer .noProposition
  | .operands p connective =>
      let p ← readProposition p
      match p.operands (← readWord connective) with
      | some (left, right) =>
          return {
            reply := .operands (some (left.text, right.text))
            results := [(first, .proposition left), (second, .proposition right)] }
      | none => answer (.operands none)
  | .quantification p =>
      match (← readProposition p).quantification with
      | some (quantifier, bound, body) =>
          let store := (← get).store
          return {
            reply := .quantification (some (quantifier, viewObject store bound, body.text))
            results := [(second, .object bound), (first, .proposition body)] }
      | none => answer (.quantification none)
  | .document item =>
      match ← readItem item with
      | .object x => answer (.objectDocument (.text x.text) ("Object(" ++ x.text ++ ")"))
      | .set s => answer (.document (.text s.name))
      | .proposition p => answer (.document p.document)
      | .proof p => answer (.document p.document)
      | _ => refuse
  | .schema name operand => yield first (.schema (← makeSchema name operand))
  | .applySchema bindings schema assert =>
      let bindings ← readBindings bindings
      match ← readItem schema with
      | .schema s => yield first (.reduction (← perform (Kernel.applySchema s bindings assert)))
      | .reduction r =>
          yield first (.reduction (← perform (Kernel.applyReduction r bindings assert)))
      | _ => refuse
  | .instantiate bindings schema =>
      let bindings ← readBindings bindings
      let schema ← readSchema schema
      yield first (.proposition (← perform (Kernel.instantiate schema bindings)))
  | .assume bindings schema =>
      let bindings ← readBindings bindings
      let schema ← readSchema schema
      yield first (.proof (← perform (Kernel.assume schema bindings)))
  | .assertedProof reduction =>
      let reduction ← readReduction reduction
      yield first (.proof (← perform (Kernel.assertedProof reduction)))
  | .reducedStatement reduction =>
      match (← readReduction reduction).statement with
      | some p => yield first (.proposition p)
      | none => answer .nothing
  | .reducedSchema reduction =>
      match (← readReduction reduction).schema with
      | some s => yield first (.schema s)
      | none => answer .nothing
  | .boundValue schema parameter =>
      let schema ← readSchema schema
      answer (.value ((schema.value parameter).map fun value => (value.kind, value.text)))
  | .postulate p =>
      let p ← readProposition p
      let both ← perform
        (Kernel.assume (.combine "hyp" (.settled p) .and (.settled p)) [])
      yield first (.proof (← perform (Kernel.andLeft both)))
  | .fromTwo rule a b =>
      let a ← readProof a
      let b ← readProof b
      yield first (.proof (← perform (rule.derive a b)))
  | .fromOne rule a =>
      let a ← readProof a
      yield first (.proof (← perform (rule.derive a)))
  | .extending rule a p =>
      let a ← readProof a
      let p ← readProposition p
      yield first (.proof (← perform (rule.derive a p)))
  | .stating rule p =>
      let p ← readProposition p
      yield first (.proof (← perform (rule.derive p)))
  | .equivalenceElimination a =>
      let a ← readProof a
      let (forward, backward) ← perform (Kernel.equivalenceElimination a)
      return {
        reply := .proofs (viewProof forward) (viewProof backward)
        results := [(first, .proof forward), (second, .proof backward)] }
  | .existentialResolution a =>
      let a ← readProof a
      let (witness, proof) ← perform (Kernel.existentialResolution a)
      let store := (← get).store
      return {
        reply := .witness (viewObject store witness) (viewProof proof)
        results := [(second, .object witness), (first, .proof proof)] }
  | .universalResolution a y =>
      let a ← readProof a
      let y ← readObject y
      yield first (.proof (← perform (Kernel.universalResolution a y)))
  | .existentialIntroduction a y x =>
      let a ← readProof a
      let y ← readObject y
      let x ← readObject x
      yield first (.proof (← perform (Kernel.existentialIntroduction a y x)))
  | .premise a index =>
      match (← readProof a).premises[index]? with
      | some premise => yield first (.proof premise)
      | none => answer .nothing
  | .tree a => answer (.tree (← readProof a).tree)
  | .compareProofs left right =>
      let left ← readProof left
      let right ← readProof right
      answer (.proofIdentity (left == right) (left.same right))
  | .info item => answer (showItem (← get).store (← readItem item))
  | .drop item =>
      let name ← readName item
      let session ← get
      set (session.erase name)
      answer (.dropped (session.lookup name).isSome)
  | .unreadable => refuse

/-! ## Running -/

def assignAll (session : Session) (results : List (VariableName × Item)) : Session :=
  results.foldl
    (fun session result =>
      match result.1 with
      | some name => session.assign name result.2
      | none => session)
    session

/-- Follow an instruction. The journal holds the events of this instruction
only. -/
def follow (session : Session) (instruction : Instruction) : Reply × Session :=
  let fresh := { session with store := { session.store with journal := [] } }
  match (evaluate instruction).run.run fresh with
  | (.ok outcome, session) => (outcome.reply, (session.assignAll outcome.results).collect)
  | (.error (.fault fault), session) => (.fault fault, session.collect)
  | (.error .unreadable, session) => (.unreadable, session.collect)

/-- The replies to a list of instructions, each with the events it caused. -/
def followAll (session : Session) : List Instruction → List (Reply × List Event)
  | [] => []
  | instruction :: instructions =>
      let (reply, session) := session.follow instruction
      (reply, session.store.journal) :: session.followAll instructions

end Session

end Deduction
