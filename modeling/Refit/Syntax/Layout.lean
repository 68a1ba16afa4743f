import Refit.Syntax.Lexeme
import Refit.Syntax.Node

namespace Refit.Syntax

/-- A place in a source: its byte offset and the text from there on. -/
structure Cursor where
  offset : Nat
  rest : List Char

namespace Cursor

def ofText (text : List Char) : Cursor := ⟨0, text⟩

def advance : Nat → Cursor → Cursor
  | count + 1, ⟨offset, c :: rest⟩ => advance count ⟨offset + c.utf8Size, rest⟩
  | _, cursor => cursor

def skipFrom (property : Char → Bool) (offset : Nat) : List Char → Cursor
  | [] => ⟨offset, []⟩
  | c :: rest => if property c then skipFrom property (offset + c.utf8Size) rest else ⟨offset, c :: rest⟩

def skip (property : Char → Bool) (cursor : Cursor) : Cursor :=
  skipFrom property cursor.offset cursor.rest

theorem length_advance_le (count : Nat) (cursor : Cursor) :
    (cursor.advance count).rest.length ≤ cursor.rest.length := by
  induction count generalizing cursor with
  | zero => simp [advance]
  | succ count ih =>
    cases cursor with
    | mk offset rest =>
      cases rest with
      | nil => simp [advance]
      | cons c rest =>
        have shorter := ih ⟨offset + c.utf8Size, rest⟩
        simp only [advance, List.length_cons] at shorter ⊢
        omega

theorem length_skipFrom_le (property : Char → Bool) (offset : Nat) (text : List Char) :
    (skipFrom property offset text).rest.length ≤ text.length := by
  induction text generalizing offset with
  | nil => simp [skipFrom]
  | cons c rest ih =>
    have shorter := ih (offset + c.utf8Size)
    simp only [skipFrom, List.length_cons]
    split
    · omega
    · simp

theorem length_skip_le (property : Char → Bool) (cursor : Cursor) :
    (cursor.skip property).rest.length ≤ cursor.rest.length :=
  length_skipFrom_le property cursor.offset cursor.rest

def comment? (cursor : Cursor) : Option (Node × Cursor) :=
  match cursor.rest, Scanner.comment cursor.rest with
  | c :: rest, some (count + 1) =>
    let after := advance count ⟨cursor.offset + c.utf8Size, rest⟩
    some (.mk (.node .comment) none ⟨cursor.offset, after.offset⟩ [], after)
  | _, _ => none

theorem length_comment?_lt {cursor after : Cursor} {node : Node}
    (found : cursor.comment? = some (node, after)) :
    after.rest.length < cursor.rest.length := by
  unfold comment? at found
  split at found
  · next c rest count text _ =>
      simp only [Option.some.injEq, Prod.mk.injEq] at found
      have shorter := length_advance_le count ⟨cursor.offset + c.utf8Size, rest⟩
      rw [found.2] at shorter
      rw [text, List.length_cons]
      exact Nat.lt_succ_of_le shorter
  · contradiction

/-- Skips blanks and comments; the comments are put, last first, before `met`. -/
def layout (met : List Node) (cursor : Cursor) : List Node × Cursor :=
  match _found : (cursor.skip isBlank).comment? with
  | some (node, after) => layout (node :: met) after
  | none => (met, cursor.skip isBlank)
termination_by cursor.rest.length
decreasing_by
  have shorter := length_comment?_lt _found
  have skipped := length_skip_le isBlank cursor
  omega

end Cursor

mutual

/-- What is ahead when a line is left: the text after blanks and whole comments, unless a slash
stands there that begins no comment. -/
def afterComments : List Char → Option (List Char)
  | [] => some []
  | '/' :: '/' :: rest => afterLine rest
  | '/' :: '*' :: rest => afterBlock rest
  | c :: rest => if isSpace c then afterComments rest else if c = '/' then none else some (c :: rest)

def afterLine : List Char → Option (List Char)
  | [] => some []
  | '\n' :: rest => afterComments rest
  | _ :: rest => afterLine rest

def afterBlock : List Char → Option (List Char)
  | [] => some []
  | '*' :: '/' :: rest => afterComments rest
  | _ :: rest => afterBlock rest

end

def continuesWord (text : List Char) : Bool :=
  match text.head? with
  | some c => isLetter c || (0x80 ≤ c.val && isNamePart c)
  | none => false

/-- Whether the text on a new line can begin a statement rather than go on with the one before.
`afterOperand` says that an operator could come next, `afterSignature` that a body could. -/
def beginsStatement (afterOperand afterSignature : Bool) (text : List Char) : Bool :=
  match text with
  | [] => true
  | '\x7b' :: _ => !afterSignature
  | '(' :: _ => !afterOperand
  | '[' :: _ => !afterOperand
  | '+' :: rest => rest.head? = some '+'
  | '-' :: rest => rest.head? = some '-'
  | '!' :: rest => rest.head? ≠ some '='
  | 'i' :: 'n' :: rest =>
    if !continuesWord rest then false
    else if "stanceof".toList.isPrefixOf rest then continuesWord (rest.drop 8)
    else true
  | c :: _ => !"`,.;*%><=?^|&/:".toList.contains c

/-- Whether a statement may end here without a semicolon: at the end of the source, before a
closing brace, or at the end of a line when the next one begins a statement. -/
def endsHere (afterOperand afterSignature : Bool) : List Char → Bool
  | [] => true
  | '\x7d' :: rest =>
    if (rest.dropWhile isSpace).head? = some ':' then afterOperand else true
  | '\n' :: rest =>
    match afterComments rest with
    | some text => beginsStatement afterOperand afterSignature text
    | none => false
  | c :: rest =>
    if c.val = 0 then true
    else if isSpace c then endsHere afterOperand afterSignature rest
    else false

/-- The end of a statement without a semicolon. Comments on the same line still belong to it. -/
def Cursor.implicitEnd? (afterOperand afterSignature : Bool) (met : List Node) (cursor : Cursor) :
    Option (List Node × Cursor) :=
  if endsHere afterOperand afterSignature cursor.rest then some (met, cursor)
  else
    match _found : (cursor.skip isBlank).comment? with
    | some (node, after) => after.implicitEnd? afterOperand afterSignature (node :: met)
    | none => none
termination_by cursor.rest.length
decreasing_by
  have shorter := Cursor.length_comment?_lt _found
  have skipped := Cursor.length_skip_le isBlank cursor
  omega

end Refit.Syntax
