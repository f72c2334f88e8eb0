import Deduction.Document
import Deduction.Session.Command

/-! # Replies

What a session shows of the values it holds. Whether the set of an object exists
is a matter of the moment, so objects are shown with respect to a store. -/

namespace Deduction.Session

/-! ## Items -/

/-- A value that a variable of a session can hold. -/
inductive Item where
  | object (x : Object)
  | set (s : Collection)
  | proposition (p : Proposition)
  | schema (s : Schema)
  | reduction (r : Reduction)
  | proof (p : Proof)
  | cursor (c : Cursor)

/-- The sets that an item refers to. Objects do not keep the sets they belong to
in existence. -/
def Item.mentioned : Item → List SetId
  | object _ => []
  | set s => [s.id]
  | proposition p => p.mentioned
  | schema s => s.mentioned
  | reduction r => r.mentioned
  | proof p => p.mentioned
  | cursor c => c.mentioned

/-! ## Views -/

structure ObjectView where
  text : String
  name : String
  id : Nat
  set : Option String
  isTuple : Bool
  components : List String

def viewObject (store : Store) (x : Object) : ObjectView where
  text := x.text
  name := x.name
  id := x.id
  set := (store.owner x).map Collection.name
  isTuple := x.isTuple
  components := x.components.map Object.text

structure SetView where
  text : String
  signature : String
  isFinite : Bool
  isExtensible : Bool
  numberKind : Option NumberKind

def viewSet (s : Collection) : SetView where
  text := s.name
  signature := s.signature
  isFinite := s.isFinite
  isExtensible := s.isExtensible
  numberKind := s.numberKind

structure SchemaView where
  text : String
  name : String
  arity : Nat
  remaining : List (String × ArgumentKind)
  bound : List (String × String)

def viewSchema (schema : Schema) : SchemaView where
  text := schema.text
  name := schema.name
  arity := schema.arity
  remaining := schema.remaining
  bound := schema.bound.map fun entry => (entry.1, entry.2.text)

structure ProofView where
  text : String
  rule : Rule
  size : Nat
  premises : List String

def viewProof (proof : Proof) : ProofView where
  text := proof.text
  rule := proof.rule
  size := proof.size
  premises := proof.premises.map fun premise => premise.conclusion.text

inductive ReductionView where
  | unfinished (schema : SchemaView)
  | complete (text : String)
  | asserted (text : String) (proof : ProofView)

def viewReduction : Reduction → ReductionView
  | .unfinished schema => .unfinished (viewSchema schema)
  | .complete statement => .complete statement.text
  | .asserted proof => .asserted proof.conclusion.text (viewProof proof)

/-! ## Replies -/

inductive Reply where
  | object (view : ObjectView)
  | set (view : SetView)
  | proposition (text : String)
  | noProposition
  | schema (view : SchemaView)
  | reduction (view : ReductionView)
  | proof (view : ProofView)
  | cursor
  | identity (equal same sameKey : Bool)
  | sets (views : List SetView)
  | noLiteral
  | contains (answer : Bool)
  | includes (answer : Bool)
  | members (texts : Option (List String))
  | items (views : List ObjectView)
  | agreement (equal sameText : Bool)
  | occurs (answer : Bool)
  | operands (texts : Option (String × String))
  | quantification (parts : Option (Quantifier × ObjectView × String))
  | document (content : Document)
  | objectDocument (content : Document) (description : String)
  | nothing
  | value (shown : Option (ArgumentKind × String))
  | proofs (first second : ProofView)
  | witness (object : ObjectView) (proof : ProofView)
  | tree (text : String)
  | proofIdentity (equal same : Bool)
  | dropped (answer : Bool)
  | fault (fault : Fault)
  | unreadable

def showItem (store : Store) : Item → Reply
  | .object x => .object (viewObject store x)
  | .set s => .set (viewSet s)
  | .proposition p => .proposition p.text
  | .schema s => .schema (viewSchema s)
  | .reduction r => .reduction (viewReduction r)
  | .proof p => .proof (viewProof p)
  | .cursor _ => .cursor

end Deduction.Session
