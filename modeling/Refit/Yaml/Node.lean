import Refit.Yaml.Scalar
import Refit.Yaml.Token

namespace Refit.Yaml

inductive Node where
  | scalar (kind : Kind) (text : String)
  | sequence (kind : Kind) (items : List Node)
  | mapping (kind : Kind) (entries : List (Node × Node))
  | reference (name : String)
  deriving Inhabited

def Node.empty : Node := .scalar .null ""

structure Document where
  root : Node
  anchors : List (String × Node)
  size : Nat

structure Reader where
  tokens : List Token
  handles : List (String × String)
  /-- The names that were given so far, also to nodes that are still being read. -/
  names : List String := []
  anchors : List (String × Node) := []

abbrev Read := StateT Reader (Except Fault)

namespace Read

/-- The next token. After the last one the stream stays at its end. -/
def peek : Read Token := do pure ((← get).tokens.headD .streamEnd)

def skip : Read Unit := modify (fun reader => { reader with tokens := reader.tokens.tail })

def unexpected {α : Type} : Token → Read α
  | .broken fault => throw fault
  | _ => throw .unexpectedToken

def expect (token : Token) : Read Unit := do
  let found ← peek
  if found = token then skip else unexpected found

def accept (token : Token) : Read Bool := do
  if (← peek) = token then do
    skip
    pure true
  else pure false

def anchor? : Read (Option String) := do
  match ← peek with
  | .anchor name => do
      skip
      pure (some name)
  | _ => pure none

def tag? : Read (Option String) := do
  match ← peek with
  | .tag none suffix => do
      skip
      pure (some suffix)
  | .tag (some handle) suffix => do
      skip
      match (← get).handles.lookup handle with
      | some text => pure (some (text ++ suffix))
      | none => throw (.unknownHandle handle)
  | _ => pure none

def properties : Read (Option String × Option String) := do
  match ← anchor? with
  | some name => pure (some name, ← tag?)
  | none =>
    match ← tag? with
    | some tag => pure (← anchor?, some tag)
    | none => pure (none, none)

def declare (name : String) : Read Unit := do
  let reader ← get
  if reader.names.contains name then throw (.repeatedAnchor name)
  set { reader with names := name :: reader.names }

/-- The kind that a tag gives; without one, or with a bare mark, it is another one. -/
def kindOf (tag : Option String) (otherwise : Kind) : Kind :=
  match tag with
  | none => otherwise
  | some tag => if tag = "!" then otherwise else Kind.ofTag tag

/-- The kind of a scalar. Only a plain scalar, or one with a bare mark, shows its kind by itself. -/
def scalarKind (tag : Option String) (text : String) (plain : Bool) : Kind :=
  kindOf tag (if plain || tag.isSome then Kind.ofText text else .string)

mutual

/-- Reads a node. Only in a block may it be a block itself; a value of a block mapping may be a
    sequence that is not indented. -/
def node : Nat → Bool → Bool → Read Node
  | 0, _, _ => throw .unexpectedToken
  | fuel + 1, inBlock, unindented => do
      match ← peek with
      | .reference name => do
          skip
          if (← get).names.contains name then pure (.reference name) else throw (.unknownAnchor name)
      | _ => do
          let (anchor, tag) ← properties
          match anchor with
          | none => content fuel inBlock unindented tag false
          | some name => do
              declare name
              let read ← content fuel inBlock unindented tag true
              modify (fun reader => { reader with anchors := (name, read) :: reader.anchors })
              pure read

def content : Nat → Bool → Bool → Option String → Bool → Read Node
  | 0, _, _, _, _ => throw .unexpectedToken
  | fuel + 1, inBlock, unindented, tag, anchored => do
      let found ← peek
      match found, inBlock, unindented with
      | .blockEntry, _, true => do pure (.sequence (kindOf tag .sequence) (← unindentedItems fuel))
      | .scalar text plain, _, _ => do
          skip
          pure (.scalar (scalarKind tag text plain) text)
      | .flowSequenceStart, _, _ => do
          skip
          pure (.sequence (kindOf tag .sequence) (← flowItems fuel true))
      | .flowMappingStart, _, _ => do
          skip
          pure (.mapping (kindOf tag .mapping) (← flowEntries fuel true))
      | .blockSequenceStart, true, _ => do
          skip
          pure (.sequence (kindOf tag .sequence) (← blockItems fuel))
      | .blockMappingStart, true, _ => do
          skip
          pure (.mapping (kindOf tag .mapping) (← blockEntries fuel))
      | found, _, _ =>
        match found with
        | .broken fault => throw fault
        | _ =>
          if anchored || tag.isSome then pure (.scalar (kindOf tag .null) "") else unexpected found

def nodeUnless : Nat → Bool → Bool → List Token → Read Node
  | 0, _, _, _ => throw .unexpectedToken
  | fuel + 1, inBlock, unindented, ends => do
      if ends.contains (← peek) then pure .empty else node fuel inBlock unindented

def blockItems : Nat → Read (List Node)
  | 0 => throw .unexpectedToken
  | fuel + 1 => do
      if ← accept .blockEntry then
        let item ← nodeUnless fuel true false [.blockEntry, .blockEnd]
        pure (item :: (← blockItems fuel))
      else
        expect .blockEnd
        pure []

def unindentedItems : Nat → Read (List Node)
  | 0 => throw .unexpectedToken
  | fuel + 1 => do
      if ← accept .blockEntry then
        let item ← nodeUnless fuel true false [.blockEntry, .key, .value, .blockEnd]
        pure (item :: (← unindentedItems fuel))
      else pure []

def blockEntries : Nat → Read (List (Node × Node))
  | 0 => throw .unexpectedToken
  | fuel + 1 => do
      if ← accept .key then
        let key ← nodeUnless fuel true true [.key, .value, .blockEnd]
        let value ←
          if ← accept .value then nodeUnless fuel true true [.key, .value, .blockEnd] else pure .empty
        pure ((key, value) :: (← blockEntries fuel))
      else
        expect .blockEnd
        pure []

def flowEntry : Nat → Token → Read (Node × Node)
  | 0, _ => throw .unexpectedToken
  | fuel + 1, close => do
      let key ← nodeUnless fuel false false [.value, .flowEntry, close]
      let value ← if ← accept .value then nodeUnless fuel false false [.flowEntry, close] else pure .empty
      pure (key, value)

def flowItems : Nat → Bool → Read (List Node)
  | 0, _ => throw .unexpectedToken
  | fuel + 1, isFirst => do
      if ← accept .flowSequenceEnd then pure []
      else
        if !isFirst then expect .flowEntry
        if ← accept .flowSequenceEnd then pure []
        else
          let item ←
            if ← accept .key then do
              let entry ← flowEntry fuel .flowSequenceEnd
              pure (Node.mapping .mapping [entry])
            else node fuel false false
          pure (item :: (← flowItems fuel false))

def flowEntries : Nat → Bool → Read (List (Node × Node))
  | 0, _ => throw .unexpectedToken
  | fuel + 1, isFirst => do
      if ← accept .flowMappingEnd then pure []
      else
        if !isFirst then expect .flowEntry
        if ← accept .flowMappingEnd then pure []
        else
          let entry ←
            if ← accept .key then flowEntry fuel .flowMappingEnd
            else do pure (← node fuel false false, Node.empty)
          pure (entry :: (← flowEntries fuel false))

end

def standardHandles : List (String × String) := [("!", "!"), ("!!", Kind.standard)]

/-- Reads directives. The handles that they give replace the standard ones. -/
def directives : Nat → Bool → List (String × String) → Read (List (String × String))
  | 0, _, _ => throw .unexpectedToken
  | fuel + 1, versioned, handles => do
      match ← peek with
      | .version major => do
          skip
          if versioned then throw .repeatedVersion
          if major ≠ 1 then throw .wrongVersion
          directives fuel true handles
      | .handle handle text => do
          skip
          if (handles.lookup handle).isSome then throw (.repeatedHandle handle)
          directives fuel versioned ((handle, text) :: handles)
      | .otherDirective => do
          skip
          directives fuel versioned handles
      | _ => pure handles

def documentEnds : Nat → Read Unit
  | 0 => pure ()
  | fuel + 1 => do
      if ← accept .documentEnd then documentEnds fuel else pure ()

def isDirective : Token → Bool
  | .version _ => true
  | .handle .. => true
  | .otherDirective => true
  | _ => false

def endsDocument (token : Token) : Bool :=
  isDirective token || token = .documentStart || token = .documentEnd || token = .streamEnd

def root (fuel : Nat) : Read Node := do
  let first ← peek
  if first = .streamEnd then pure .empty
  else
    let node ←
      if isDirective first || first = .documentStart then do
        let given ← directives fuel false []
        modify (fun reader => { reader with handles := given ++ standardHandles })
        expect .documentStart
        if endsDocument (← peek) then pure .empty else node fuel true false
      else node fuel true false
    documentEnds fuel
    match ← peek with
    | .streamEnd => pure node
    | .broken fault => throw fault
    | _ => throw .severalDocuments

end Read

def Document.ofTokens (tokens : List Token) : Except Fault Document := do
  let fuel := 4 * tokens.length + 8
  let (root, reader) ← (Read.root fuel).run { tokens := tokens, handles := Read.standardHandles }
  pure ⟨root, reader.anchors, fuel⟩

end Refit.Yaml
