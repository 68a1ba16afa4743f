namespace Refit.Syntax

abbrev Scanner := List Char → Option Nat

def isBlank (c : Char) : Bool :=
  (0x09 ≤ c.val && c.val ≤ 0x0d) || c.val = 0x20 || c.val = 0xa0 || c.val = 0x1680 ||
  (0x2000 ≤ c.val && c.val ≤ 0x200b) || c.val = 0x2028 || c.val = 0x2029 || c.val = 0x202f ||
  c.val = 0x205f || c.val = 0x2060 || c.val = 0x3000 || c.val = 0xfeff

/-- The blanks after which a line break may end a statement: those that may break a line. -/
def isSpace (c : Char) : Bool :=
  (0x09 ≤ c.val && c.val ≤ 0x0d) || c.val = 0x20 || c.val = 0x1680 ||
  (0x2000 ≤ c.val && c.val ≤ 0x200a && c.val ≠ 0x2007) || c.val = 0x2028 || c.val = 0x2029 ||
  c.val = 0x205f || c.val = 0x3000

def isLineEnd (c : Char) : Bool :=
  c = '\n' || c = '\r' || c.val = 0x2028 || c.val = 0x2029

def isDigit (c : Char) : Bool := '0' ≤ c && c ≤ '9'

def isHexDigit (c : Char) : Bool :=
  isDigit c || ('a' ≤ c && c ≤ 'f') || ('A' ≤ c && c ≤ 'F')

def isLetter (c : Char) : Bool := ('a' ≤ c && c ≤ 'z') || ('A' ≤ c && c ≤ 'Z')

def punctuation : List Char := ":;`\"'@#.,|^&<=>+-*/\\%?!~()[]\x7b\x7d".toList

def isNamePart (c : Char) : Bool := 0x20 ≤ c.val && !isBlank c && !punctuation.contains c

def isNameStart (c : Char) : Bool := isNamePart c && !isDigit c

namespace Scanner

def run (property : Char → Bool) (text : List Char) : Nat := (text.takeWhile property).length

def fixed (expected : List Char) : Scanner := fun text =>
  if expected.isPrefixOf text then some expected.length else none

/-- A character written by its number: four hexadecimal digits, or any number of them in braces. -/
def nameEscape : Scanner
  | '\\' :: 'u' :: '\x7b' :: rest =>
    let digits := run isHexDigit rest
    if 0 < digits && (rest.drop digits).head? = some '\x7d' then some (digits + 4) else none
  | '\\' :: 'u' :: a :: b :: c :: d :: _ => if [a, b, c, d].all isHexDigit then some 6 else none
  | _ => none

def nameParts : Nat → List Char → Nat
  | _, [] => 0
  | skip + 1, _ :: rest => 1 + nameParts skip rest
  | 0, c :: rest =>
    if isNamePart c then 1 + nameParts 0 rest
    else match nameEscape (c :: rest) with
      | some count => 1 + nameParts (count - 1) rest
      | none => 0

def name : Scanner
  | [] => none
  | c :: rest =>
    if isNameStart c then some (1 + nameParts 0 rest)
    else match nameEscape (c :: rest) with
      | some count => some (1 + nameParts (count - 1) rest)
      | none => none

def nameExcept (words : List String) : Scanner := fun text =>
  match name text with
  | some count => if words.contains (String.ofList (text.take count)) then none else some count
  | none => none

def word (expected : String) : Scanner := fun text =>
  let letters := expected.toList
  if letters.isPrefixOf text && nameParts 0 (text.drop letters.length) = 0 then some letters.length
  else none

def hyphenatedName : Scanner
  | c :: rest =>
    let plain := fun c => isLetter c || isDigit c || c = '_' || c = '$'
    if plain c && !isDigit c then
      let head := run plain rest
      if (rest.drop head).head? = some '-' then
        some (1 + head + run (fun c => plain c || c = '-') (rest.drop head))
      else none
    else none
  | [] => none

def longer (first second : Scanner) : Scanner := fun text =>
  match first text, second text with
  | some a, some b => some (max a b)
  | some a, none => some a
  | none, other => other

def privateName : Scanner
  | '#' :: rest => (name rest).map (· + 1)
  | _ => none

def digits (digit : Char → Bool) : List Char → Nat
  | [] => 0
  | [c] => if digit c then 1 else 0
  | '_' :: d :: rest => if digit d then 1 + digits digit (d :: rest) else 0
  | c :: rest => if digit c then 1 + digits digit rest else 0

def digitRun (digit : Char → Bool) (text : List Char) : Nat :=
  match text.head? with
  | some c => if digit c then digits digit text else 0
  | none => 0

def exponent (text : List Char) : Nat :=
  match text with
  | mark :: rest =>
    if mark = 'e' || mark = 'E' then
      let sign := match rest.head? with
        | some c => if c = '+' || c = '-' then 1 else 0
        | none => 0
      let count := digitRun isDigit (rest.drop sign)
      if 0 < count then 1 + sign + count else 0
    else 0
  | [] => 0

def basedNumber (letters : List Char) (digit : Char → Bool) : Scanner
  | '0' :: mark :: rest =>
    if letters.contains mark then
      let count := digitRun digit rest
      if 0 < count then
        some (2 + count + if (rest.drop count).head? = some 'n' then 1 else 0)
      else none
    else none
  | _ => none

def decimalNumber : Scanner := fun text =>
  let whole := digitRun isDigit text
  let rest := text.drop whole
  match rest with
  | '.' :: fraction =>
    let count := digitRun isDigit fraction
    if 0 < whole || 0 < count then some (whole + 1 + count + exponent (fraction.drop count)) else none
  | 'n' :: _ => if 0 < whole then some (whole + 1) else none
  | _ => if 0 < whole then some (whole + exponent rest) else none

def number : Scanner :=
  longer (basedNumber ['x', 'X'] isHexDigit)
    (longer (basedNumber ['b', 'B'] (fun c => c = '0' || c = '1'))
      (longer (basedNumber ['o', 'O'] (fun c => '0' ≤ c && c ≤ '7')) decimalNumber))

def escape : Scanner
  | '\\' :: 'x' :: a :: b :: _ => if isHexDigit a && isHexDigit b then some 4 else none
  | '\\' :: 'u' :: rest => nameEscape ('\\' :: 'u' :: rest)
  | '\\' :: '\r' :: '\n' :: _ => some 3
  | '\\' :: c :: rest =>
    if c = 'x' then none
    else if '0' ≤ c && c ≤ '7' then
      some (2 + run (fun c => '0' ≤ c && c ≤ '7') (rest.take 2))
    else some 2
  | _ => none

def quotedRest (quote : Char) : Nat → List Char → Option Nat
  | _, [] => none
  | skip + 1, _ :: rest => (quotedRest quote skip rest).map (· + 1)
  | 0, c :: rest =>
    if c = quote then some 1
    else if c = '\n' || c = '\r' then none
    else if c = '\\' then
      match escape (c :: rest) with
      | some count => (quotedRest quote (count - 1) rest).map (· + 1)
      | none => none
    else (quotedRest quote 0 rest).map (· + 1)

def string : Scanner
  | '"' :: rest => (quotedRest '"' 0 rest).map (· + 1)
  | '\'' :: rest => (quotedRest '\'' 0 rest).map (· + 1)
  | _ => none

def characterReference : Scanner
  | '&' :: '#' :: x :: rest =>
    let hexadecimal := x = 'x' || x = 'X'
    let body := if hexadecimal then rest else x :: rest
    let count := if hexadecimal then run isHexDigit body else run isDigit body
    let limit := if hexadecimal then 6 else 5
    if 0 < count && count ≤ limit && (body.drop count).head? = some ';' then
      some (count + (if hexadecimal then 4 else 3))
    else none
  | '&' :: rest =>
    let count := run isLetter rest
    if 0 < count && count ≤ 30 && (rest.drop count).head? = some ';' then some (count + 2) else none
  | _ => none

/-- How far an attribute value goes up to its closing quote, after `skip` known characters. An
ampersand takes the next character with it unless a character reference could begin there. -/
def attributeRest (quote : Char) : Nat → List Char → Option Nat
  | _, [] => none
  | skip + 1, _ :: rest => (attributeRest quote skip rest).map (· + 1)
  | 0, c :: rest =>
    if c = quote then some 1
    else if c = '&' then
      match rest.head? with
      | none => none
      | some next =>
        if next = '#' || isLetter next then
          match characterReference (c :: rest) with
          | some count => (attributeRest quote (count - 1) rest).map (· + 1)
          | none => none
        else (attributeRest quote 1 rest).map (· + 1)
    else (attributeRest quote 0 rest).map (· + 1)

/-- A quoted attribute value; it has no escapes and may go over lines. -/
def attributeString : Scanner
  | '"' :: rest => (attributeRest '"' 0 rest).map (· + 1)
  | '\'' :: rest => (attributeRest '\'' 0 rest).map (· + 1)
  | _ => none

/-- How far a regular expression goes up to its closing slash and flags. A slash inside a
bracketed class does not close it. -/
def regexBody : Bool → List Char → Option Nat
  | _, [] => none
  | _, ['\\'] => none
  | inClass, '\\' :: c :: rest => if c = '\n' then none else (regexBody inClass rest).map (· + 2)
  | true, c :: rest =>
    if c = '\n' then none else (regexBody (c != ']') rest).map (· + 1)
  | false, c :: rest =>
    if c = '/' then some (1 + run (fun c => 'a' ≤ c && c ≤ 'z') rest)
    else if c = '\n' then none
    else (regexBody (c = '[') rest).map (· + 1)

def regex : Scanner
  | '/' :: c :: rest => if c = '/' then none else (regexBody false (c :: rest)).map (· + 1)
  | _ => none

def templateRun : List Char → Nat
  | [] => 0
  | '$' :: '\x7b' :: _ => 0
  | c :: rest => if c = '\x60' || c = '\\' || c.val = 0 then 0 else 1 + templateRun rest

def templateText : Scanner := fun text =>
  let count := templateRun text
  match (text.drop count).head? with
  | some c => if 0 < count && c.val ≠ 0 then some count else none
  | none => none

def markupRun : List Char → Nat :=
  run (fun c => !(c.val = 0 || c = '<' || c = '>' || c = '\x7b' || c = '\x7d' || c = '&'))

def saysSomething : Bool → List Char → Bool
  | _, [] => false
  | _, '\n' :: rest => saysSomething true rest
  | atLineStart, c :: rest => !(atLineStart && isSpace c) || saysSomething true rest

def markupText : Scanner := fun text =>
  let count := markupRun text
  if saysSomething false (text.take count) then some count else none

def blockCommentRest : List Char → Option Nat
  | [] => none
  | [_] => none
  | '*' :: '/' :: _ => some 2
  | _ :: rest => (blockCommentRest rest).map (· + 1)

def comment : Scanner
  | '/' :: '/' :: rest => some (2 + run (fun c => !isLineEnd c) rest)
  | '/' :: '*' :: rest => (blockCommentRest rest).map (· + 2)
  | _ => none

def markupComment : Scanner
  | '<' :: '!' :: '-' :: '-' :: rest =>
    some (4 + run (fun c => !(c = '\n' || c.val = 0 || c.val = 0x2028 || c.val = 0x2029)) rest)
  | _ => none

def hashBang : Scanner
  | '#' :: '!' :: rest => some (2 + run (fun c => c ≠ '\n') rest)
  | _ => none

def operators : List (List Char) :=
  [">>>=", "===", "!==", "**=", "<<=", ">>=", ">>>", "&&=", "||=", "??=", "...",
   "=>", "==", "!=", "<=", ">=", "&&", "||", "??", "?.", "++", "--", "+=", "-=", "*=", "/=", "%=",
   "&=", "|=", "^=", "<<", ">>", "**",
   "<", ">", "=", "!", "?", "+", "-", "*", "/", "%", "&", "|", "^", ".", ",", ":", ";"].map String.toList

def operator (expected : String) : Scanner := fun text =>
  let marks := expected.toList
  if marks.isPrefixOf text && operators.find? (·.isPrefixOf text) = some marks then some marks.length
  else none

/-- The question mark of a conditional: not one that belongs to an optional chain, to a default for
missing values or to an optional parameter. -/
def conditionalMark : Scanner
  | '?' :: rest =>
    match rest with
    | '?' :: _ => none
    | _ =>
      match rest.dropWhile isSpace with
      | ':' :: _ => none
      | ')' :: _ => none
      | ',' :: _ => none
      | '.' :: c :: _ => if isDigit c then some 1 else none
      | ['.'] => none
      | _ => some 1
  | _ => none

/-- The mark of an optional chain; a digit after it would make it a conditional. -/
def chainMark : Scanner
  | '?' :: '.' :: rest =>
    match rest with
    | c :: _ => if isDigit c then none else some 2
    | [] => some 2
  | _ => none

end Scanner
end Refit.Syntax
