import Refit.Yaml.Written
import Refit.Text.Utf8

namespace Refit.Yaml

inductive Token where
  | version (major : Nat)
  | handle (handle replacement : String)
  | otherDirective
  | documentStart
  | documentEnd
  | streamEnd
  | blockSequenceStart
  | blockMappingStart
  | blockEnd
  | flowSequenceStart
  | flowSequenceEnd
  | flowMappingStart
  | flowMappingEnd
  | flowEntry
  | blockEntry
  | key
  | value
  | reference (name : String)
  | anchor (name : String)
  | tag (handle : Option String) (suffix : String)
  | scalar (text : String) (plain : Bool)
  | broken (fault : Fault)
  deriving DecidableEq

namespace Tag

def isUriChar (c : Char) : Bool := isNameChar c || ";/?:@&=+$,.!~*'()[]%".toList.contains c

def escapedBytes : Nat → List Char → Except Fault (List UInt8 × List Char)
  | 0, rest => .ok ([], rest)
  | fuel + 1, '%' :: rest =>
    match Text.hexValue? 2 rest with
    | none => .error .badTag
    | some byte => do
        let (others, stop) ← escapedBytes fuel (rest.drop 2)
        pure (byte.toUInt8 :: others, stop)
  | _ + 1, rest => .ok ([], rest)

def unescape : Nat → List Char → Except Fault (List Char)
  | 0, _ => .ok []
  | _ + 1, [] => .ok []
  | fuel + 1, '%' :: rest => do
      let (bytes, stop) ← escapedBytes (rest.length + 1) ('%' :: rest)
      match Text.Utf8.decode bytes with
      | .error _ => throw .badTag
      | .ok text =>
        let others ← unescape fuel stop
        pure (text.toList ++ others)
  | fuel + 1, c :: rest => do
      let others ← unescape fuel rest
      pure (c :: others)

def uri (cursor : Cursor) : Except Fault (String × Cursor) := do
  let (text, stop) := cursor.span isUriChar
  if text.isEmpty then throw .badTag
  let name ← unescape (text.length + 1) text
  pure (String.ofList name, stop)

def handle (cursor : Cursor) : Except Fault (String × Cursor) :=
  if cursor.peek? ≠ some '!' then .error .badTag
  else if cursor.peekAt? 1 = some ' ' then .ok ("!", cursor.next)
  else
    let (name, stop) := cursor.next.span isNameChar
    if stop.peek? = some '!' then .ok (String.ofList ('!' :: name ++ ['!']), stop.next) else .error .badTag

def hasHandle (rest : List Char) : Bool := (rest.takeWhile (fun c => !endsField (some c))).contains '!'

def scan (cursor : Cursor) : Except Fault (Token × Cursor) := do
  let (token, stop) ←
    if cursor.peekAt? 1 = some '<' then do
      let (suffix, stop) ← uri (cursor.advance 2)
      if stop.peek? = some '>' then pure (Token.tag none suffix, stop.next) else throw .badTag
    else if endsWord (cursor.peekAt? 1) then pure (Token.tag none "!", cursor.next)
    else do
      let (handle, stop) ←
        if hasHandle (cursor.rest.drop 1) then handle cursor else pure ("!", cursor.next)
      let (suffix, stop) ← uri stop
      pure (Token.tag (some handle) suffix, stop)
  if endsField stop.peek? then pure (token, stop) else throw .badTag

end Tag

def anchorName (cursor : Cursor) : Except Fault (String × Cursor) :=
  let (name, stop) := cursor.next.span isNameChar
  let isFollowed := endsWord stop.peek? || stop.peek?.any (fun c => "?:,]\x7d%@\x60".toList.contains c)
  if name.isEmpty || !isFollowed then .error .badAnchor else .ok (String.ofList name, stop)

namespace Directive

def digits (cursor : Cursor) : Except Fault (Nat × Cursor) :=
  let (text, stop) := cursor.span Char.isDigit
  if text.isEmpty then .error .badDirective
  else .ok (text.foldl (fun n c => 10 * n + (c.toNat - '0'.toNat)) 0, stop)

def version (cursor : Cursor) : Except Fault (Token × Cursor) := do
  let (major, stop) ← digits cursor.skipBlanks
  if stop.peek? ≠ some '.' then throw .badDirective
  let (_, stop) ← digits stop.next
  if endsField stop.peek? then pure (.version major, stop) else throw .badDirective

def handle (cursor : Cursor) : Except Fault (Token × Cursor) := do
  let (handle, stop) ← Tag.handle cursor.skipBlanks
  if stop.peek? ≠ some ' ' then throw .badDirective
  let (replacement, stop) ← Tag.uri stop.skipBlanks
  if endsField stop.peek? then pure (.handle handle replacement, stop) else throw .badDirective

def scan (cursor : Cursor) : Except Fault (Token × Cursor) := do
  let (name, stop) := cursor.next.span isNameChar
  if name.isEmpty || !endsField stop.peek? then throw .badDirective
  let (token, stop) ←
    if name = "YAML".toList then version stop
    else if name = "TAG".toList then handle stop
    else pure (.otherDirective, stop.skip (fun c => !isBreak c))
  pure (token, ← stop.endLine .badDirective)

end Directive

/-- A scalar or collection that may turn out to be a key, if a colon follows it on the same line. -/
structure PossibleKey where
  level : Nat
  token : Nat
  required : Bool
  place : Cursor

structure Scanner where
  cursor : Cursor
  level : Nat := 0
  indent : Int := -1
  indents : List Int := []
  allowsKey : Bool := true
  keys : List PossibleKey := []
  tokens : Array Token := #[]

namespace Scanner

def push (scanner : Scanner) (token : Token) : Scanner :=
  { scanner with tokens := scanner.tokens.push token }

def insert (scanner : Scanner) (number : Nat) (token : Token) : Scanner :=
  { scanner with
    tokens := (scanner.tokens.extract 0 number).push token
      ++ scanner.tokens.extract number scanner.tokens.size }

def take (scanner : Scanner) (count : Nat) (token : Token) : Scanner :=
  ({ scanner with cursor := scanner.cursor.advance count }).push token

def unwind (column : Int) : Nat → Scanner → Scanner
  | 0, scanner => scanner
  | fuel + 1, scanner =>
    if scanner.level = 0 && column < scanner.indent then
      unwind column fuel
        ({ scanner with
          indent := scanner.indents.headD (-1)
          indents := scanner.indents.tail }.push .blockEnd)
    else scanner

def unwindTo (scanner : Scanner) (column : Int) : Scanner :=
  unwind column (scanner.indents.length + 1) scanner

def startBlock (scanner : Scanner) (column number : Nat) (start : Token) : Scanner :=
  if scanner.level = 0 && scanner.indent < column then
    { scanner with indent := column, indents := scanner.indent :: scanner.indents }.insert number start
  else scanner

def isStale (cursor : Cursor) (key : PossibleKey) : Bool :=
  key.place.line ≠ cursor.line || 1024 < cursor.index - key.place.index

def dropKeys (scanner : Scanner) (property : PossibleKey → Bool) : Except Fault Scanner :=
  if scanner.keys.any (fun key => property key && key.required) then .error .missingColon
  else .ok { scanner with keys := scanner.keys.filter (fun key => !property key) }

def dropKey (scanner : Scanner) : Except Fault Scanner := scanner.dropKeys (fun key => key.level = scanner.level)

def noteKey (scanner : Scanner) : Except Fault Scanner := do
  if !scanner.allowsKey then return scanner
  let scanner ← scanner.dropKey
  let key : PossibleKey :=
    { level := scanner.level
      token := scanner.tokens.size
      required := scanner.level = 0 && scanner.indent = scanner.cursor.column
      place := scanner.cursor }
  pure { scanner with keys := key :: scanner.keys }

def skipSpace : Nat → Scanner → Scanner
  | 0, scanner => scanner
  | fuel + 1, scanner =>
    let cursor := scanner.cursor.skipComment
    match cursor.lineBreak? with
    | none => { scanner with cursor := cursor }
    | some (_, next) =>
      skipSpace fuel
        { scanner with cursor := next, allowsKey := scanner.level = 0 || scanner.allowsKey }

def atMargin (scanner : Scanner) : Except Fault Scanner := do
  let scanner ← (scanner.unwindTo (-1)).dropKey
  pure { scanner with allowsKey := false }

def separator (scanner : Scanner) (token : Token) : Except Fault Scanner := do
  pure ((← scanner.atMargin).take 3 token)

def directive (scanner : Scanner) : Except Fault Scanner := do
  let scanner ← scanner.atMargin
  let (token, stop) ← Directive.scan scanner.cursor
  pure ({ scanner with cursor := stop }.push token)

def openFlow (scanner : Scanner) (token : Token) : Except Fault Scanner := do
  let scanner ← scanner.noteKey
  pure ({ scanner with level := scanner.level + 1, allowsKey := true }.take 1 token)

def closeFlow (scanner : Scanner) (token : Token) : Except Fault Scanner := do
  if scanner.level = 0 then throw .unbalanced
  let scanner ← scanner.dropKey
  pure ({ scanner with level := scanner.level - 1, allowsKey := false }.take 1 token)

def flowEntry (scanner : Scanner) : Except Fault Scanner := do
  let scanner ← scanner.dropKey
  pure ({ scanner with allowsKey := true }.take 1 .flowEntry)

def blockEntry (scanner : Scanner) : Except Fault Scanner := do
  if scanner.level = 0 && !scanner.allowsKey then throw .misplacedEntry
  let scanner := scanner.startBlock scanner.cursor.column scanner.tokens.size .blockSequenceStart
  let scanner ← scanner.dropKey
  pure ({ scanner with allowsKey := true }.take 1 .blockEntry)

def explicitKey (scanner : Scanner) : Except Fault Scanner := do
  if scanner.level = 0 && !scanner.allowsKey then throw .misplacedKey
  let scanner := scanner.startBlock scanner.cursor.column scanner.tokens.size .blockMappingStart
  let scanner ← scanner.dropKey
  pure ({ scanner with allowsKey := scanner.level = 0 }.take 1 .key)

/-- A colon makes the possible key before it a key. -/
def value (scanner : Scanner) : Except Fault Scanner := do
  match scanner.keys.find? (fun key => key.level = scanner.level) with
  | some key =>
    let kept := scanner.keys.filter (fun other => other.level ≠ scanner.level)
    let scanner := { scanner with keys := kept, allowsKey := false }.insert key.token .key
    pure ((scanner.startBlock key.place.column key.token .blockMappingStart).take 1 .value)
  | none =>
    if scanner.level = 0 && !scanner.allowsKey then throw .misplacedValue
    let scanner := scanner.startBlock scanner.cursor.column scanner.tokens.size .blockMappingStart
    pure ({ scanner with allowsKey := scanner.level = 0 }.take 1 .value)

def keyToken (scanner : Scanner) (scan : Cursor → Except Fault (Token × Cursor)) : Except Fault Scanner := do
  let scanner ← scanner.noteKey
  let (token, stop) ← scan scanner.cursor
  pure ({ scanner with cursor := stop, allowsKey := false }.push token)

def block (scanner : Scanner) (folded : Bool) : Except Fault Scanner := do
  let scanner ← scanner.dropKey
  let (text, stop) ← Block.scan folded scanner.indent scanner.cursor
  pure ({ scanner with cursor := stop, allowsKey := true }.push (.scalar text false))

def plain (scanner : Scanner) : Except Fault Scanner := do
  let scanner ← scanner.noteKey
  let words := Plain.scan (scanner.level ≠ 0) (scanner.indent + 1) scanner.cursor
  pure
    ({ scanner with cursor := words.stop, allowsKey := words.broken }.push
      (.scalar (String.ofList words.text) true))

def startsPlain (inFlow : Bool) (c : Char) (following : Option Char) : Bool :=
  !(endsWord (some c) || "-?:,[]\x7b\x7d#&*!|>'\"%@\x60".toList.contains c)
    || (!endsWord following && (c = '-' || (!inFlow && (c = '?' || c = ':'))))

def token (scanner : Scanner) (c : Char) : Except Fault Scanner :=
  let cursor := scanner.cursor
  let inFlow := scanner.level ≠ 0
  let atWordEnd := endsWord (cursor.peekAt? 1)
  if c = '%' && cursor.column = 0 then scanner.directive
  else if cursor.column = 0 && cursor.atSeparator then
    scanner.separator (if c = '-' then .documentStart else .documentEnd)
  else
    match c with
    | '[' => scanner.openFlow .flowSequenceStart
    | '\x7b' => scanner.openFlow .flowMappingStart
    | ']' => scanner.closeFlow .flowSequenceEnd
    | '\x7d' => scanner.closeFlow .flowMappingEnd
    | ',' => scanner.flowEntry
    | '*' => scanner.keyToken (fun cursor => do
        let (name, stop) ← anchorName cursor
        pure (.reference name, stop))
    | '&' => scanner.keyToken (fun cursor => do
        let (name, stop) ← anchorName cursor
        pure (.anchor name, stop))
    | '!' => scanner.keyToken Tag.scan
    | '\'' => scanner.keyToken (fun cursor => do
        let (text, stop) ← Quoted.scan false cursor
        pure (.scalar text false, stop))
    | '"' => scanner.keyToken (fun cursor => do
        let (text, stop) ← Quoted.scan true cursor
        pure (.scalar text false, stop))
    | c =>
      if c = '-' && atWordEnd then scanner.blockEntry
      else if c = '?' && (inFlow || atWordEnd) then scanner.explicitKey
      else if c = ':' && (inFlow || atWordEnd) then scanner.value
      else if c = '|' && !inFlow then scanner.block false
      else if c = '>' && !inFlow then scanner.block true
      else if startsPlain inFlow c (cursor.peekAt? 1) then scanner.plain
      else .error (.stray c)

def step (scanner : Scanner) : Except Fault (Scanner × Bool) := do
  let scanner := skipSpace scanner.cursor.fuel scanner
  let scanner ← scanner.dropKeys (isStale scanner.cursor)
  let scanner := scanner.unwindTo scanner.cursor.column
  match scanner.cursor.peek? with
  | none => pure ((← scanner.atMargin).push .streamEnd, true)
  | some c => pure (← scanner.token c, false)

def run : Nat → Scanner → Array Token
  | 0, scanner => scanner.tokens
  | fuel + 1, scanner =>
    match scanner.step with
    | .ok (next, false) => run fuel next
    | .ok (last, true) => last.tokens
    | .error fault => scanner.tokens.push (.broken fault)

end Scanner

/-- The tokens of a text. A byte order mark at its start is passed over. -/
def Token.scan (text : List Char) : List Token :=
  match text.find? (fun c => !isPrintable c) with
  | some c => [.broken (.unprintable c)]
  | none =>
    let start : Cursor := ⟨text, 0, 0, 0⟩
    let start := if text.head? = some byteOrderMark then start.next else start
    (Scanner.run (text.length + 1) { cursor := start }).toList

end Refit.Yaml
