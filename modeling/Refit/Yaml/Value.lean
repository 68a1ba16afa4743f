import Refit.Json.Value
import Refit.Yaml.Node

namespace Refit.Yaml

inductive Value where
  | null
  | bool (value : Bool)
  | int (value : Int)
  | float (value : Float)
  | string (value : String)
  | bytes (value : List UInt8)
  | list (items : List Value)
  /-- A mapping, of which the entries with texts as keys are known. -/
  | table (entries : List (String × Value))
  /-- Any other value, which may be an empty collection. -/
  | other (isEmpty : Bool)
  deriving Inhabited

def Scalar.value : Scalar → Value
  | .null => .null
  | .bool value => .bool value
  | .int value => .int value
  | .float value => .float value
  | .string value => .string value
  | .bytes value => .bytes value
  | .moment => .other false

def Node.kind : Node → Kind
  | scalar kind _ => kind
  | sequence kind _ => kind
  | mapping kind _ => kind
  | reference _ => .null

namespace Document

def resolve (document : Document) : Node → Node
  | .reference name => (document.anchors.lookup name).getD .empty
  | node => node

def kindOf (document : Document) (node : Node) : Kind := (document.resolve node).kind

def isMerge (document : Document) (entry : Node × Node) : Bool := document.kindOf entry.1 = .merge

/-- The text of a scalar. A mapping may stand for the value that it names as its own. -/
def scalarText (document : Document) : Nat → Node → Except Fault String
  | 0, _ => .error .wrongKind
  | fuel + 1, node =>
    match document.resolve node with
    | .scalar _ text => .ok text
    | .mapping _ entries =>
      match entries.find? (fun entry => document.kindOf entry.1 = .default) with
      | some entry => document.scalarText fuel entry.2
      | none => .error .wrongKind
    | _ => .error .wrongKind

def scalar (document : Document) (node : Node) : Except Fault Scalar :=
  match document.kindOf node with
  | .merge => .error .unknownTag
  | .default => .error .unknownTag
  | .other _ => .error .unknownTag
  | kind => do Scalar.read kind (← document.scalarText document.size node)

def isMapping (document : Document) (node : Node) : Bool :=
  match document.resolve node with
  | .mapping .. => true
  | _ => false

def canMerge (document : Document) (node : Node) : Bool :=
  match document.resolve node with
  | .mapping .. => true
  | .sequence _ items => items.all document.isMapping
  | .scalar .. => false
  | .reference _ => false

/-- The entries of a mapping, or of the mappings of a sequence, after those that are merged into
    them. Of several mappings the first ones come last, so that they prevail. A mapping that is being
    merged already, under one of the names in `active`, is not merged into itself again. -/
def merged (document : Document) : Nat → List String → Node → List (Node × Node)
  | 0, _, _ => []
  | fuel + 1, active, node =>
    let (isActive, active) := match node with
      | .reference name => (active.contains name, name :: active)
      | _ => (false, active)
    match document.resolve node with
    | .mapping _ entries =>
      let own := entries.filter (fun entry => !document.isMerge entry)
      if isActive then own
      else
        (entries.filter document.isMerge).flatMap (fun entry => document.merged fuel active entry.2)
          ++ own
    | .sequence _ items => items.reverse.flatMap (document.merged fuel active)
    | _ => []

def writtenEntries (document : Document) : Nat → Node → Except Fault (List (Node × Node))
  | 0, _ => .ok []
  | fuel + 1, node =>
    match node with
    | .mapping _ entries => do
        let merges := entries.filter document.isMerge
        if merges.any (fun entry => !document.canMerge entry.2) then throw .badMerge
        let inner ← merges.mapM (fun entry => document.writtenEntries fuel entry.2)
        pure (inner.flatten ++ entries.filter (fun entry => !document.isMerge entry))
    | .sequence _ items => do
        let inner ← items.mapM (document.writtenEntries fuel)
        pure inner.flatten
    | _ => .ok []

def checkOne (document : Document) (node : Node) : Except Fault Unit := do
  if (document.kindOf node).isCollection then pure ()
  else
    let _ ← document.scalar node
    pure ()

def checkKey (document : Document) (node : Node) : Except Fault Unit := do
  if document.kindOf node = .default then pure ()
  else
    document.checkOne node
    if (document.kindOf node).isCollection then throw .collectionAsKey

def singleEntry (document : Document) (node : Node) : Except Fault (Node × Node) :=
  match document.resolve node with
  | .mapping _ [entry] => .ok entry
  | _ => .error .wrongKind

def checkEntries (document : Document) (node : Node) : Except Fault (List Node) := do
  let entries ← document.writtenEntries document.size node
  entries.forM (fun entry => do
    document.checkKey entry.1
    document.checkOne entry.2)
  pure (entries.flatMap (fun entry => [entry.1, entry.2]))

def checkPairs (document : Document) (items : List Node) : Except Fault (List Node) := do
  let entries ← items.mapM (fun item => do
    let entry ← document.singleEntry item
    document.checkOne entry.1
    document.checkOne entry.2
    pure entry)
  pure (entries.flatMap (fun entry => [entry.1, entry.2]))

def checkParts (document : Document) (node : Node) : Except Fault (List Node) :=
  match node.kind, node with
  | .sequence, .sequence _ items => do
      items.forM document.checkOne
      pure items
  | .mapping, .mapping .. => document.checkEntries node
  | .set, .mapping .. => document.checkEntries node
  | .orderedMapping, .sequence _ items => document.checkPairs items
  | .pairs, .sequence _ items => document.checkPairs items
  | _, _ => .error .wrongKind

def checkAll (document : Document) : Nat → List Node → Except Fault Unit
  | 0, _ => .ok ()
  | _ + 1, [] => .ok ()
  | fuel + 1, node :: rest => do
      let parts ← document.checkParts node
      document.checkAll fuel (rest ++ parts.filter (fun part => part.kind.isCollection))

def check (document : Document) : Except Fault Unit := do
  document.checkOne document.root
  document.checkAll document.size ([document.root].filter (fun node => node.kind.isCollection))

def load (text : List Char) : Except Fault Document := do
  let document ← ofTokens (Token.scan text)
  document.check
  pure document

def keyText? (document : Document) (key : Node) : Option String :=
  match document.kindOf key with
  | .string => (document.scalarText document.size key).toOption
  | .default => (document.scalarText document.size key).toOption
  | _ => none

/-- The value of a node of a document that was loaded. Collections below a depth are not told
    apart. -/
def valueOf (document : Document) : Nat → Node → Value
  | depth, node =>
    match document.kindOf node, document.resolve node, depth with
    | .sequence, .sequence _ items, depth + 1 => .list (items.map (document.valueOf depth))
    | .mapping, found, depth + 1 =>
      .table
        ((document.merged document.size [] found).foldl
          (fun entries entry =>
            match document.keyText? entry.1 with
            | some key => Json.insert entries key (document.valueOf depth entry.2)
            | none => entries)
          [])
    | .set, .mapping _ entries, _ => .other entries.isEmpty
    | .orderedMapping, .sequence _ items, _ => .list (items.map (fun _ => .other false))
    | .pairs, .sequence _ items, _ => .list (items.map (fun _ => .other false))
    | kind, _, _ =>
      if kind.isCollection then .other false
      else
        match document.scalar node with
        | .ok scalar => scalar.value
        | .error _ => .null

def value (document : Document) (depth : Nat) : Value := document.valueOf depth document.root

end Document
end Refit.Yaml
