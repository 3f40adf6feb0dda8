/-!
The characters of YAML texts and a cursor that moves over them. The text behind a cursor has only
permitted characters, and its line breaks are in one form.
-/

namespace ReleaseNotes.Yaml

/-- May stand at the start of a line, where it takes a column of its own. -/
def byteOrderMark : Char := '\ufeff'

def isPermitted (c : Char) : Bool :=
  let n := c.toNat
  n == 9 || n == 10 || n == 13 || (0x20 ≤ n && n ≤ 0x7E) || n == 0x85 ||
    (0xA0 ≤ n && n ≤ 0xFFFD) || 0x10000 ≤ n

/-- Carriage returns, also with a line feed behind them, and next-line characters become line
feeds. -/
def normalizeBreaks : List Char → List Char
  | [] => []
  | '\r' :: '\n' :: rest => '\n' :: normalizeBreaks rest
  | c :: rest => (if c = '\r' || c = '\x85' then '\n' else c) :: normalizeBreaks rest

/-- Ends a line. The separators of lines and paragraphs do so, too. -/
def isBreak (c : Char) : Bool :=
  c == '\n' || c == '\u2028' || c == '\u2029'

def isSpaceOrTab (c : Char) : Bool :=
  c == ' ' || c == '\t'

def isGap (c : Char) : Bool :=
  isSpaceOrTab c || isBreak c

def isWordChar (c : Char) : Bool :=
  c.isAlphanum || c == '_' || c == '-'

/-- No token goes on after this place: the text ends or is separated. -/
def endsHere : List Char → Bool
  | [] => true
  | c :: _ => isGap c

structure Cursor where
  rest : List Char
  /-- How many bytes come before this place. -/
  index : Nat
  line : Nat
  column : Nat

namespace Cursor

def next (cursor : Cursor) : Cursor :=
  match cursor.rest with
  | [] => cursor
  | c :: rest =>
    if isBreak c then ⟨rest, cursor.index + c.utf8Size, cursor.line + 1, 0⟩
    else ⟨rest, cursor.index + c.utf8Size, cursor.line, cursor.column + 1⟩

def skip (cursor : Cursor) : Nat → Cursor
  | 0 => cursor
  | n + 1 => cursor.next.skip n

def span (cursor : Cursor) (p : Char → Bool) : List Char × Cursor :=
  let run := cursor.rest.takeWhile p
  (run, cursor.skip run.length)

def isAt (cursor : Cursor) (c : Char) : Bool :=
  cursor.rest.head? == some c

/-- A line begins here with three times the same mark, which stand alone. -/
def isDocumentMark (cursor : Cursor) (c : Char) : Bool :=
  cursor.column == 0 &&
    match cursor.rest with
    | x :: y :: z :: rest => x == c && y == c && z == c && endsHere rest
    | _ => false

def isDocumentBoundary (cursor : Cursor) : Bool :=
  cursor.isDocumentMark '-' || cursor.isDocumentMark '.'

def skipComment (cursor : Cursor) : Cursor :=
  let (_, cursor) := cursor.span isSpaceOrTab
  if cursor.isAt '#' then (cursor.span fun c => !isBreak c).2 else cursor

def finishLine? (cursor : Cursor) : Option Cursor :=
  let cursor := cursor.skipComment
  match cursor.rest with
  | [] => some cursor
  | c :: _ => if isBreak c then some cursor.next else none

end Cursor

def Cursor.ofText? (text : String) : Option Cursor :=
  let chars := text.toList
  if chars.all isPermitted then some ⟨normalizeBreaks chars, 0, 0, 0⟩ else none

end ReleaseNotes.Yaml
