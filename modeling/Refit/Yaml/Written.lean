import Refit.Text.Hex
import Refit.Yaml.Fault

namespace Refit.Yaml

def isPrintable (c : Char) : Bool :=
  c = '\t' || c = '\n' || c = '\r' || c = '\x85' || (0x20 ≤ c.val && c.val ≤ 0x7e)
    || (0xa0 ≤ c.val && c.val ≤ 0xfffd) || 0x10000 ≤ c.val

def isSeparator (c : Char) : Bool := c = '\u2028' || c = '\u2029'

def isBreak (c : Char) : Bool := c = '\n' || c = '\r' || c = '\x85' || isSeparator c

def byteOrderMark : Char := '\ufeff'

def endsField : Option Char → Bool
  | none => true
  | some c => c = ' ' || isBreak c

def endsWord : Option Char → Bool
  | none => true
  | some c => c = ' ' || c = '\t' || isBreak c

def isNameChar (c : Char) : Bool := c.isAlphanum || c = '-' || c = '_'

/-- A place: what is left of the text, and how many characters, lines and columns precede it. -/
structure Cursor where
  rest : List Char
  index : Nat := 0
  line : Nat := 0
  column : Nat := 0

namespace Cursor

def peek? (cursor : Cursor) : Option Char := cursor.rest.head?

def peekAt? (cursor : Cursor) (count : Nat) : Option Char := (cursor.rest.drop count).head?

/-- Passes one character. A byte order mark takes no column. -/
def next (cursor : Cursor) : Cursor :=
  match cursor.rest with
  | [] => cursor
  | c :: rest =>
    if isBreak c && !(c = '\r' && rest.head? = some '\n') then
      ⟨rest, cursor.index + 1, cursor.line + 1, 0⟩
    else ⟨rest, cursor.index + 1, cursor.line, if c = byteOrderMark then cursor.column else cursor.column + 1⟩

def advance (cursor : Cursor) : Nat → Cursor
  | 0 => cursor
  | count + 1 => cursor.next.advance count

def span (cursor : Cursor) (property : Char → Bool) : List Char × Cursor :=
  let text := cursor.rest.takeWhile property
  (text, cursor.advance text.length)

def skip (cursor : Cursor) (property : Char → Bool) : Cursor := (cursor.span property).2

def skipBlanks (cursor : Cursor) : Cursor := cursor.skip (· = ' ')

def skipComment (cursor : Cursor) : Cursor :=
  let cursor := cursor.skipBlanks
  if cursor.peek? = some '#' then cursor.skip (fun c => !isBreak c) else cursor

/-- Passes a line break. The break of most kinds counts as a line feed. -/
def lineBreak? (cursor : Cursor) : Option (Char × Cursor) :=
  match cursor.rest with
  | '\r' :: '\n' :: _ => some ('\n', cursor.advance 2)
  | c :: _ =>
    if isSeparator c then some (c, cursor.next)
    else if isBreak c then some ('\n', cursor.next)
    else none
  | [] => none

def atSeparator (cursor : Cursor) : Bool :=
  let mark := cursor.rest.take 3
  (mark = ['-', '-', '-'] || mark = ['.', '.', '.']) && endsWord (cursor.peekAt? 3)

def endLine (fault : Fault) (cursor : Cursor) : Except Fault Cursor :=
  let cursor := cursor.skipComment
  match cursor.lineBreak? with
  | some (_, next) => .ok next
  | none => if cursor.rest.isEmpty then .ok cursor else .error fault

def fuel (cursor : Cursor) : Nat := cursor.rest.length + 1

end Cursor

def isInlineBlank (c : Char) : Bool := c = ' ' || c = '\t'

/-- A line break inside of a scalar is a blank, unless empty lines follow it, which are line breaks then. -/
def foldBreaks (first : Char) (others : List Char) : List Char :=
  (if first ≠ '\n' then [first] else if others.isEmpty then [' '] else []) ++ others

namespace Quoted

def simpleEscape? : Char → Option Char
  | '0' => some '\x00'
  | 'a' => some '\x07'
  | 'b' => some '\x08'
  | 't' => some '\t'
  | '\t' => some '\t'
  | 'n' => some '\n'
  | 'v' => some '\x0b'
  | 'f' => some '\x0c'
  | 'r' => some '\r'
  | 'e' => some '\x1b'
  | ' ' => some ' '
  | '"' => some '"'
  | '\\' => some '\\'
  | '/' => some '/'
  | 'N' => some '\x85'
  | '_' => some '\xa0'
  | 'L' => some '\u2028'
  | 'P' => some '\u2029'
  | _ => none

def escapeWidth? : Char → Option Nat
  | 'x' => some 2
  | 'u' => some 4
  | 'U' => some 8
  | _ => none

def lowSurrogate? : List Char → Option Nat
  | '\\' :: 'u' :: rest => (Text.hexValue? 4 rest).filter Text.isLowSurrogate
  | _ => none

def numericEscape (width : Nat) (cursor : Cursor) : Except Fault (Char × Cursor) :=
  let after := cursor.advance width
  match Text.hexValue? width cursor.rest with
  | none => .error .badEscape
  | some code =>
    if 0x10ffff < code then .error (.value (.noCharacter code))
    else if Text.isHighSurrogate code then
      match lowSurrogate? after.rest with
      | some low => .ok (Text.charOf (Text.joinSurrogates code low), after.advance 6)
      | none => .ok (Text.charOf code, after)
    else .ok (Text.charOf code, after)

/-- The breaks of empty lines. Documents cannot be separated inside of quotes. -/
def breaks : Nat → Cursor → Except Fault (List Char × Cursor)
  | 0, cursor => .ok ([], cursor)
  | fuel + 1, cursor =>
    if cursor.atSeparator then .error .misplacedSeparator
    else
      let cursor := cursor.skip isInlineBlank
      match cursor.lineBreak? with
      | none => .ok ([], cursor)
      | some (c, next) => do
          let (others, stop) ← breaks fuel next
          pure (c :: others, stop)

def spaces (cursor : Cursor) : Except Fault (List Char × Cursor) := do
  let (blanks, cursor) := cursor.span isInlineBlank
  match cursor.lineBreak? with
  | none => if cursor.rest.isEmpty then throw .unexpectedEnd else pure (blanks, cursor)
  | some (c, next) =>
    let (others, stop) ← breaks next.fuel next
    pure (foldBreaks c others, stop)

def escape (cursor : Cursor) : Except Fault (List Char × Cursor) :=
  match cursor.peek? with
  | none => .error .badEscape
  | some c =>
    match simpleEscape? c, escapeWidth? c, cursor.lineBreak? with
    | some meant, _, _ => .ok ([meant], cursor.next)
    | none, some width, _ => do
        let (meant, stop) ← numericEscape width cursor.next
        pure ([meant], stop)
    | none, none, some (_, next) => breaks next.fuel next
    | none, none, none => .error .badEscape

/-- The text up to the closing quote, and the place after it. The characters that were read come in
    reverse order. -/
def rest (double : Bool) : Nat → Cursor → List Char → Except Fault (List Char × Cursor)
  | 0, _, _ => .error .unexpectedEnd
  | fuel + 1, cursor, read =>
    match cursor.rest with
    | [] => .error .unexpectedEnd
    | c :: _ =>
      if isInlineBlank c || isBreak c then do
        let (text, stop) ← spaces cursor
        rest double fuel stop (text.reverse ++ read)
      else if double then
        if c = '"' then .ok (read.reverse, cursor.next)
        else if c = '\\' then do
          let (text, stop) ← escape cursor.next
          rest double fuel stop (text.reverse ++ read)
        else rest double fuel cursor.next (c :: read)
      else if c = '\'' then
        if cursor.peekAt? 1 = some '\'' then rest double fuel (cursor.advance 2) ('\'' :: read)
        else .ok (read.reverse, cursor.next)
      else rest double fuel cursor.next (c :: read)

/-- A text in quotes. Double quotes have escapes; single quotes have only the doubled quote. -/
def scan (double : Bool) (cursor : Cursor) : Except Fault (String × Cursor) := do
  let (text, stop) ← rest double cursor.fuel cursor.next []
  pure (String.ofList text, stop)

end Quoted

namespace Plain

def isFlowMark (c : Char) : Bool := c = ',' || c = '[' || c = ']' || c = '\x7b' || c = '\x7d'

def ends (inFlow : Bool) (c : Char) (following : Option Char) : Bool :=
  endsWord (some c) || (c = ':' && (endsWord following || (inFlow && following.any isFlowMark)))
    || (inFlow && (c = '?' || isFlowMark c))

def word (inFlow : Bool) : List Char → List Char
  | [] => []
  | c :: rest => if ends inFlow c rest.head? then [] else c :: word inFlow rest

/-- The breaks of empty lines and the blanks before the next word. There are none if documents are
    separated here. -/
def breaks : Nat → Cursor → Option (List Char) × Cursor
  | 0, cursor => (some [], cursor)
  | fuel + 1, cursor =>
    let cursor := cursor.skipBlanks
    match cursor.lineBreak? with
    | none => (some [], cursor)
    | some (c, next) =>
      if next.atSeparator then (none, next)
      else
        match breaks fuel next with
        | (some others, stop) => (some (c :: others), stop)
        | (none, stop) => (none, stop)

structure Gap where
  text : List Char
  broken : Bool
  stop : Cursor

def gap (cursor : Cursor) : Gap :=
  let (blanks, cursor) := cursor.span (· = ' ')
  match cursor.lineBreak? with
  | none => ⟨blanks, false, cursor⟩
  | some (c, next) =>
    if next.atSeparator then ⟨[], true, next⟩
    else
      match breaks next.fuel next with
      | (some others, stop) => ⟨foldBreaks c others, true, stop⟩
      | (none, stop) => ⟨[], true, stop⟩

/-- The text of a plain scalar, whether a line ended after its last word, and the place after it. -/
structure Words where
  text : List Char
  broken : Bool
  stop : Cursor

def words (inFlow : Bool) (indent : Int) : Nat → Cursor → List Char → Bool → List Char → Words
  | 0, cursor, _, broken, read => ⟨read, broken, cursor⟩
  | fuel + 1, cursor, space, broken, read =>
    let text := word inFlow cursor.rest
    if cursor.peek? = some '#' || text.isEmpty then ⟨read, broken, cursor⟩
    else
      let read := read ++ space ++ text
      let following := gap (cursor.advance text.length)
      let stop := following.stop
      if following.text.isEmpty || stop.peek? = some '#' || (!inFlow && (stop.column : Int) < indent) then
        ⟨read, following.broken, stop⟩
      else words inFlow indent fuel stop following.text following.broken read

/-- Words without quotes. They go on over lines that are indented far enough. -/
def scan (inFlow : Bool) (indent : Int) (cursor : Cursor) : Words :=
  words inFlow indent cursor.fuel cursor [] false []

end Plain

namespace Block

inductive Chomping where
  | clip
  | strip
  | keep
  deriving DecidableEq

def chomping? : Option Char → Option Chomping
  | some '+' => some .keep
  | some '-' => some .strip
  | _ => none

def digit? (c : Option Char) : Option Nat :=
  match c with
  | some c => if c.isDigit then some (c.toNat - '0'.toNat) else none
  | none => none

structure Header where
  chomping : Chomping
  indent : Option Nat
  stop : Cursor

def finish (chomping : Option Chomping) (indent : Option Nat) (stop : Cursor) : Except Fault Header :=
  if indent = some 0 || !endsField stop.peek? then .error .badHeader
  else .ok ⟨chomping.getD .clip, indent, stop⟩

def header (cursor : Cursor) : Except Fault Header :=
  match chomping? cursor.peek? with
  | some chomping =>
    match digit? cursor.next.peek? with
    | some indent => finish (some chomping) (some indent) (cursor.advance 2)
    | none => finish (some chomping) none cursor.next
  | none =>
    match digit? cursor.peek? with
    | none => finish none none cursor
    | some indent =>
      match chomping? cursor.next.peek? with
      | some chomping => finish (some chomping) (some indent) (cursor.advance 2)
      | none => finish none (some indent) cursor.next

def skipIndent (indent : Nat) (cursor : Cursor) : Cursor :=
  cursor.advance (min (cursor.rest.takeWhile (· = ' ')).length (indent - cursor.column))

def breaks (indent : Nat) : Nat → Cursor → List Char × Cursor
  | 0, cursor => ([], cursor)
  | fuel + 1, cursor =>
    let cursor := skipIndent indent cursor
    match cursor.lineBreak? with
    | none => ([], cursor)
    | some (c, next) =>
      let (others, stop) := breaks indent fuel next
      (c :: others, stop)

def leading : Nat → Cursor → Nat → List Char × Nat × Cursor
  | 0, cursor, farthest => ([], farthest, cursor)
  | fuel + 1, cursor, farthest =>
    let cursor := cursor.skipBlanks
    let farthest := max farthest cursor.column
    match cursor.lineBreak? with
    | none => ([], farthest, cursor)
    | some (c, next) =>
      let (others, reached, stop) := leading fuel next farthest
      (c :: others, reached, stop)

/-- The lines of a scalar: their text, the break after the last one, the breaks of empty lines after
    it, and the place where they end. -/
structure Lines where
  text : List Char
  lastBreak : List Char
  trailing : List Char
  stop : Cursor

def atLine (indent : Nat) (cursor : Cursor) : Bool := cursor.column = indent && !cursor.rest.isEmpty

/-- What stands between two lines. Only lines that start with no blank are folded. -/
def between (folded : Bool) (lineBreak others : List Char) (start next : Option Char) : List Char :=
  if folded && lineBreak = ['\n'] && !start.any isInlineBlank && !next.any isInlineBlank then
    if others.isEmpty then [' '] else []
  else lineBreak

def lines (folded : Bool) (indent : Nat) : Nat → Cursor → List Char → List Char → Lines
  | 0, cursor, pending, read => ⟨read, [], pending, cursor⟩
  | fuel + 1, cursor, pending, read =>
    let (line, ended) := cursor.span (fun c => !isBreak c)
    let read := read ++ pending ++ line
    let (lineBreak, next) := match ended.lineBreak? with
      | some (c, next) => ([c], next)
      | none => ([], ended)
    let (others, stop) := breaks indent next.fuel next
    if atLine indent stop then
      lines folded indent fuel stop others
        (read ++ between folded lineBreak others cursor.peek? stop.peek?)
    else ⟨read, lineBreak, others, stop⟩

/-- The indented lines of a block, kept as they are or folded into paragraphs. -/
def scan (folded : Bool) (parent : Int) (cursor : Cursor) : Except Fault (String × Cursor) := do
  let header ← header cursor.next
  let start ← header.stop.endLine .badHeader
  let least := max (parent + 1) 1
  let (first, indent, stop) :=
    match header.indent with
    | some given =>
      let indent := (least + given - 1).toNat
      let (first, stop) := breaks indent start.fuel start
      (first, indent, stop)
    | none =>
      let (first, farthest, stop) := leading start.fuel start 0
      (first, max least.toNat farthest, stop)
  let read :=
    if atLine indent stop then lines folded indent stop.fuel stop first [] else ⟨[], [], first, stop⟩
  let ending := match header.chomping with
    | .strip => []
    | .clip => read.lastBreak
    | .keep => read.lastBreak ++ read.trailing
  pure (String.ofList (read.text ++ ending), read.stop)

end Block
end Refit.Yaml
