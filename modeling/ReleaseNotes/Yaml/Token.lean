import ReleaseNotes.Yaml.Scalar

/-!
The tokens of YAML texts. Collections that are marked by indentation get tokens for their beginning
and their end. What turns out to be a key only at the colon behind it gets its token afterwards, so
a candidate for a key remembers how many tokens came before it.
-/

namespace ReleaseNotes.Yaml

inductive Token where
  | versionDirective (major minor : Nat)
  | tagDirective (handle start : String)
  | documentStart
  | documentEnd
  | blockSequenceStart
  | blockMappingStart
  | blockEnd
  | flowSequenceStart
  | flowSequenceEnd
  | flowMappingStart
  | flowMappingEnd
  | blockEntry
  | flowEntry
  | key
  | value
  | alias (name : String)
  | anchor (name : String)
  | tag (handle suffix : String)
  | scalar (style : Style) (text : String)
deriving DecidableEq, Repr

structure Candidate where
  tokensBefore : Nat
  /-- Nothing but a key can stand in this place. -/
  isRequired : Bool
  index : Nat
  line : Nat
  column : Nat

structure Lexer where
  cursor : Cursor
  /-- The latest token comes first. -/
  tokens : List Token
  tokenCount : Nat
  /-- The candidate of the current collection and those of the flow collections around it. -/
  candidates : List (Option Candidate)
  /-- The column of the current block collection, or minus one. -/
  indent : Int
  outerIndents : List Int
  /-- A key may begin here. -/
  allowsKey : Bool

namespace Lexer

def start (cursor : Cursor) : Lexer := ⟨cursor, [], 0, [none], -1, [], true⟩

def inFlow (lexer : Lexer) : Bool := lexer.candidates.length > 1

def push (lexer : Lexer) (token : Token) : Lexer :=
  { lexer with tokens := token :: lexer.tokens, tokenCount := lexer.tokenCount + 1 }

def insert (lexer : Lexer) (position : Nat) (token : Token) : Lexer :=
  let later := lexer.tokenCount - position
  { lexer with
    tokens := lexer.tokens.take later ++ token :: lexer.tokens.drop later
    tokenCount := lexer.tokenCount + 1 }

def moveTo (lexer : Lexer) (cursor : Cursor) : Lexer := { lexer with cursor := cursor }

def allow (lexer : Lexer) (key : Bool) : Lexer := { lexer with allowsKey := key }

/-! Blanks between tokens. -/

/-- Moves to the next token. In blocks, tabs do not come where a key may begin, and a new line
allows a key. A line may begin with a byte order mark. -/
def skipGap : Nat → Lexer → Lexer
  | 0, lexer => lexer
  | fuel + 1, lexer =>
    match lexer.cursor.rest with
    | [] => lexer
    | c :: _ =>
      if c = ' ' || (c = '\t' && (lexer.inFlow || !lexer.allowsKey)) ||
          (c = byteOrderMark && lexer.cursor.column = 0) then
        skipGap fuel (lexer.moveTo lexer.cursor.next)
      else if c = '#' then
        skipGap fuel (lexer.moveTo (lexer.cursor.span fun c => !isBreak c).2)
      else if isBreak c then
        skipGap fuel ((lexer.moveTo lexer.cursor.next).allow (!lexer.inFlow || lexer.allowsKey))
      else lexer

/-! Candidates for keys. -/

/-- A key has to end on its line, and after at most 1024 bytes. -/
def isStale (cursor : Cursor) (candidate : Candidate) : Bool :=
  candidate.line < cursor.line || candidate.index + 1024 < cursor.index

def dropCandidate? : Option Candidate → Option (Option Candidate)
  | none => some none
  | some candidate => if candidate.isRequired then none else some none

def dropStale? (lexer : Lexer) : Option Lexer := do
  let candidates ← lexer.candidates.mapM fun candidate =>
    if (candidate.map (isStale lexer.cursor)).getD false then dropCandidate? candidate
    else some candidate
  return { lexer with candidates := candidates }

def setCandidate (lexer : Lexer) (candidate : Option Candidate) : Lexer :=
  { lexer with candidates := candidate :: lexer.candidates.tail }

def candidate (lexer : Lexer) : Option Candidate := lexer.candidates.head?.getD none

def endCandidate? (lexer : Lexer) : Option Lexer := do
  return lexer.setCandidate (← dropCandidate? lexer.candidate)

def beginCandidate? (lexer : Lexer) : Option Lexer :=
  if lexer.allowsKey then do
    let lexer ← lexer.endCandidate?
    let cursor := lexer.cursor
    let isRequired := !lexer.inFlow && lexer.indent == (cursor.column : Int)
    return lexer.setCandidate
      (some ⟨lexer.tokenCount, isRequired, cursor.index, cursor.line, cursor.column⟩)
  else some lexer

/-! Indentation. -/

def indentTo (lexer : Lexer) (column position : Nat) (token : Token) : Lexer :=
  if lexer.inFlow || (column : Int) ≤ lexer.indent then lexer
  else
    { lexer.insert position token with
      indent := column
      outerIndents := lexer.indent :: lexer.outerIndents }

def dedentFrom (column : Int) (lexer : Lexer) : List Int → Lexer
  | [] => lexer
  | outer :: rest =>
    if lexer.indent ≤ column then lexer
    else dedentFrom column { lexer.push .blockEnd with indent := outer, outerIndents := rest } rest

def dedentTo (lexer : Lexer) (column : Int) : Lexer :=
  if lexer.inFlow then lexer else dedentFrom column lexer lexer.outerIndents

/-! Single tokens. -/

/-- Leaves all block collections, as before a document or a directive. -/
def leaveBlocks? (lexer : Lexer) : Option Lexer := do
  let lexer ← (lexer.dedentTo (-1)).endCandidate?
  return lexer.allow false

def word (cursor : Cursor) : String × Cursor :=
  let (name, cursor) := cursor.span isWordChar
  (String.ofList name, cursor)

def shortNumber? (cursor : Cursor) : Option (Nat × Cursor) :=
  let (digits, cursor) := cursor.span Char.isDigit
  if digits = [] || 9 < digits.length then none
  else some (Text.valueOfDigits digits, cursor)

/-- A character of a tag. Marks of flow collections are for tags in brackets. -/
def isTagChar (inBrackets : Bool) (c : Char) : Bool :=
  isWordChar c || ";/?:@&=+$.%!~*'()".toList.contains c || (inBrackets && ",[]".toList.contains c)

/-- How many bytes a character has whose first byte is given. -/
def byteCount? (byte : Nat) : Option Nat :=
  if byte < 0x80 then some 1
  else if 0xC0 ≤ byte && byte < 0xE0 then some 2
  else if 0xE0 ≤ byte && byte < 0xF0 then some 3
  else if 0xF0 ≤ byte && byte < 0xF8 then some 4
  else none

/-- The bytes of a tag, of which some are written in hexadecimal digits. The list says how many
bytes of a character that is written so are still to come. -/
def tagBytes? : Nat → List Char → Option (List UInt8)
  | 0, [] => some []
  | _ + 1, [] => none
  | due, '%' :: x :: y :: rest => do
    let byte ← Text.hexValue? [x, y]
    let due ← match due with
      | 0 => (byteCount? byte).map (· - 1)
      | due + 1 => if 0x80 ≤ byte && byte < 0xC0 then some due else none
    return byte.toUInt8 :: (← tagBytes? due rest)
  | 0, c :: rest =>
    if c = '%' then none
    else (tagBytes? 0 rest).map ((String.singleton c).toUTF8.toList ++ ·)
  | _ + 1, _ :: _ => none

/-- The text of a tag. Bytes that are no text give an empty one. -/
def tagText? (chars : List Char) : Option String := do
  let bytes ← tagBytes? 0 chars
  return (String.fromUTF8? ⟨bytes.toArray⟩).getD ""

/-- A handle of tags: a mark, a word, and a mark again unless the handle is incomplete. -/
def tagHandle? (cursor : Cursor) : Option (List Char × Cursor) :=
  if cursor.isAt '!' then
    let (name, behind) := cursor.next.span isWordChar
    if behind.isAt '!' then some ('!' :: name ++ ['!'], behind.next)
    else some ('!' :: name, behind)
  else none

def tagDirective? (cursor : Cursor) : Option (Token × Cursor) := do
  let (handle, cursor) ← tagHandle? (cursor.span isSpaceOrTab).2
  if handle != ['!'] && handle.getLast? != some '!' then none
  if !(cursor.rest.head?.map isSpaceOrTab).getD false then none
  let (start, cursor) := (cursor.span isSpaceOrTab).2.span (isTagChar true)
  if start = [] || !endsHere cursor.rest then none
  return (.tagDirective (String.ofList handle) (← tagText? start), cursor)

def versionDirective? (cursor : Cursor) : Option (Token × Cursor) := do
  let (major, cursor) ← shortNumber? (cursor.span isSpaceOrTab).2
  if !cursor.isAt '.' then none
  let (minor, cursor) ← shortNumber? cursor.next
  return (.versionDirective major minor, cursor)

def directive? (lexer : Lexer) : Option Lexer := do
  let lexer ← lexer.leaveBlocks?
  let (name, cursor) := word lexer.cursor.next
  if name = "" || !endsHere cursor.rest then none
  let (token, cursor) ←
    if name = "YAML" then versionDirective? cursor
    else if name = "TAG" then tagDirective? cursor
    else none
  return (lexer.push token).moveTo (← cursor.finishLine?)

def documentMark? (lexer : Lexer) (token : Token) : Option Lexer := do
  let lexer ← lexer.leaveBlocks?
  return (lexer.push token).moveTo (lexer.cursor.skip 3)

def flowStart? (lexer : Lexer) (token : Token) : Option Lexer := do
  let lexer ← lexer.beginCandidate?
  return ({ lexer.push token with
    candidates := none :: lexer.candidates
    allowsKey := true }).moveTo lexer.cursor.next

def flowEnd? (lexer : Lexer) (token : Token) : Option Lexer := do
  let lexer ← lexer.endCandidate?
  let candidates := if lexer.inFlow then lexer.candidates.tail else lexer.candidates
  return ({ lexer.push token with candidates := candidates, allowsKey := false }).moveTo
    lexer.cursor.next

def flowComma? (lexer : Lexer) : Option Lexer := do
  let lexer ← lexer.endCandidate?
  return ((lexer.push .flowEntry).allow true).moveTo lexer.cursor.next

/-- Begins a block collection at a mark in its column, where a key must be allowed. -/
def atMark? (lexer : Lexer) (token : Token) : Option Lexer :=
  if lexer.inFlow then some lexer
  else if lexer.allowsKey then
    some (lexer.indentTo lexer.cursor.column lexer.tokenCount token)
  else none

def blockDash? (lexer : Lexer) : Option Lexer := do
  let lexer ← (← lexer.atMark? .blockSequenceStart).endCandidate?
  return ((lexer.push .blockEntry).allow true).moveTo lexer.cursor.next

def key? (lexer : Lexer) : Option Lexer := do
  let lexer ← (← lexer.atMark? .blockMappingStart).endCandidate?
  return ((lexer.push .key).allow (!lexer.inFlow)).moveTo lexer.cursor.next

/-- The colon before a value. What was a candidate is a key now. -/
def value? (lexer : Lexer) : Option Lexer := do
  let lexer ← match lexer.candidate with
    | some candidate =>
      let lexer := lexer.insert candidate.tokensBefore .key
      let lexer := lexer.indentTo candidate.column candidate.tokensBefore .blockMappingStart
      some ((lexer.setCandidate none).allow false)
    | none => (lexer.atMark? .blockMappingStart).map fun lexer => lexer.allow (!lexer.inFlow)
  return (lexer.push .value).moveTo lexer.cursor.next

def endsName : List Char → Bool
  | [] => true
  | c :: _ => isGap c || "?:,]\x7d%@`".toList.contains c

def anchor? (lexer : Lexer) (token : String → Token) : Option Lexer := do
  let lexer ← lexer.beginCandidate?
  let (name, cursor) := word lexer.cursor.next
  if name = "" || !endsName cursor.rest then none
  return ((lexer.push (token name)).allow false).moveTo cursor

/-- A tag in brackets stands for itself; any other one begins with a handle. -/
def tagToken? (cursor : Cursor) : Option (Token × Cursor) :=
  if cursor.next.isAt '<' then do
    let (name, cursor) := (cursor.skip 2).span (isTagChar true)
    if name = [] || !cursor.isAt '>' then none
    return (.tag "" (← tagText? name), cursor.next)
  else do
    let (handle, behind) ← tagHandle? cursor
    if 1 < handle.length && handle.getLast? == some '!' then
      let (suffix, cursor) := behind.span (isTagChar false)
      if suffix = [] then none
      return (.tag (String.ofList handle) (← tagText? suffix), cursor)
    else
      let (suffix, cursor) := behind.span (isTagChar false)
      let suffix := handle.tail ++ suffix
      if suffix = [] then return (.tag "" "!", cursor)
      else return (.tag "!" (← tagText? suffix), cursor)

def tag? (lexer : Lexer) : Option Lexer := do
  let lexer ← lexer.beginCandidate?
  let (token, cursor) ← tagToken? lexer.cursor
  if endsHere cursor.rest || (lexer.inFlow && cursor.isAt ',') then
    return ((lexer.push token).allow false).moveTo cursor
  else none

def block? (lexer : Lexer) (style : Style) : Option Lexer := do
  let lexer ← lexer.endCandidate?
  let (text, cursor) ← Scalar.block? style lexer.indent lexer.cursor
  return ((lexer.push (.scalar style (String.ofList text))).allow true).moveTo cursor

def quoted? (lexer : Lexer) (style : Style) : Option Lexer := do
  let lexer ← lexer.beginCandidate?
  let (text, cursor) ← Scalar.quoted? style lexer.cursor
  return ((lexer.push (.scalar style (String.ofList text))).allow false).moveTo cursor

def plain? (lexer : Lexer) : Option Lexer := do
  let lexer ← lexer.beginCandidate?
  let plain ← Scalar.plain? lexer.inFlow (lexer.indent + 1) lexer.cursor
  let token := .scalar .plain (String.ofList plain.text)
  return ((lexer.push token).allow plain.endsLine).moveTo plain.cursor

def beginsPlain (inFlow : Bool) (c : Char) (rest : List Char) : Bool :=
  if c == '-' then !(rest.head?.map isSpaceOrTab).getD false
  else if c == '?' || c == ':' then !inFlow && !endsHere rest
  else !isGap c && !",[]\x7b\x7d#&*!|>'\"%@`".toList.contains c

def token? (lexer : Lexer) (c : Char) (rest : List Char) : Option Lexer :=
  let cursor := lexer.cursor
  if cursor.column = 0 && c = '%' then lexer.directive?
  else if cursor.isDocumentMark '-' then lexer.documentMark? .documentStart
  else if cursor.isDocumentMark '.' then lexer.documentMark? .documentEnd
  else if c = '[' then lexer.flowStart? .flowSequenceStart
  else if c = '\x7b' then lexer.flowStart? .flowMappingStart
  else if c = ']' then lexer.flowEnd? .flowSequenceEnd
  else if c = '\x7d' then lexer.flowEnd? .flowMappingEnd
  else if c = ',' then lexer.flowComma?
  else if c = '-' && endsHere rest then lexer.blockDash?
  else if c = '?' && (lexer.inFlow || endsHere rest) then lexer.key?
  else if c = ':' && (lexer.inFlow || endsHere rest) then lexer.value?
  else if c = '*' then lexer.anchor? .alias
  else if c = '&' then lexer.anchor? .anchor
  else if c = '!' then lexer.tag?
  else if c = '|' && !lexer.inFlow then lexer.block? .literal
  else if c = '>' && !lexer.inFlow then lexer.block? .folded
  else if c = '\'' then lexer.quoted? .singleQuoted
  else if c = '"' then lexer.quoted? .doubleQuoted
  else if beginsPlain lexer.inFlow c rest then lexer.plain?
  else none

def finish? : Nat → Lexer → Option (List Token)
  | 0, _ => none
  | fuel + 1, lexer => do
    let lexer ← (skipGap (lexer.cursor.rest.length + 1) lexer).dropStale?
    let lexer := lexer.dedentTo lexer.cursor.column
    match lexer.cursor.rest with
    | [] => return (← lexer.leaveBlocks?).tokens.reverse
    | c :: rest => finish? fuel (← lexer.token? c rest)

end Lexer

def Token.ofText? (text : String) : Option (List Token) := do
  let cursor ← Cursor.ofText? text
  Lexer.finish? (cursor.rest.length + 1) (.start cursor)

end ReleaseNotes.Yaml
