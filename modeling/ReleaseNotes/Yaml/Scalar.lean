import ReleaseNotes.Text.Digits
import ReleaseNotes.Yaml.Cursor

/-!
Reading scalars: plain and quoted ones, whose line breaks are folded into spaces, and blocks, whose
lines are kept or folded. Each function gives the text of the scalar and the place behind it.
-/

namespace ReleaseNotes.Yaml

inductive Style where
  | plain
  | singleQuoted
  | doubleQuoted
  | literal
  | folded
deriving DecidableEq, Repr

namespace Scalar

/-- What line breaks between two parts of a scalar stand for: a single one for a space, and more of
them for all but the first. -/
def foldBreaks : List Char → List Char
  | [] => []
  | c :: others =>
    if c = '\n' then (if others = [] then [' '] else others) else c :: others

def foldGap (gap : List Char) : List Char :=
  if gap.any isBreak then foldBreaks (gap.filter isBreak) else gap

/-- After a line break, no tab comes before a column. -/
def tabsAreInside (indent : Int) (column : Nat) (afterBreak : Bool) : List Char → Bool
  | [] => true
  | c :: rest =>
    if isBreak c then tabsAreInside indent 0 true rest
    else
      !(afterBreak && c == '\t' && (column : Int) < indent) &&
        tabsAreInside indent (column + 1) afterBreak rest

/-! Plain scalars. -/

def isFlowMark (c : Char) : Bool :=
  c == ',' || c == '[' || c == ']' || c == '\x7b' || c == '\x7d'

/-- The next part of a plain scalar up to a gap or to a mark that ends it. In flow collections a
colon must not touch a mark. -/
def plainPart? (inFlow : Bool) : List Char → Option (List Char)
  | [] => some []
  | c :: rest =>
    let touchesMark := (rest.head?.map fun d => d == '?' || isFlowMark d).getD false
    if isGap c then some []
    else if inFlow && c == ':' && touchesMark then none
    else if c == ':' && endsHere rest then some []
    else if inFlow && isFlowMark c then some []
    else (plainPart? inFlow rest).map (c :: ·)

structure Plain where
  text : List Char
  /-- Behind the gap after the scalar. -/
  cursor : Cursor
  /-- The gap after the scalar holds a line break. -/
  endsLine : Bool

def plainFrom? (inFlow : Bool) (indent : Int) : Nat → List Char → List Char → Cursor → Option Plain
  | 0, _, _, _ => none
  | fuel + 1, text, gap, cursor =>
    let finished : Plain := ⟨text, cursor, gap.any isBreak⟩
    if cursor.isDocumentBoundary || cursor.isAt '#' then some finished
    else do
      let part ← plainPart? inFlow cursor.rest
      let (text, gap, cursor) :=
        if part = [] then (text, gap, cursor)
        else (text ++ foldGap gap ++ part, [], cursor.skip part.length)
      let (nextGap, behind) := cursor.span isGap
      if nextGap = [] then some ⟨text, cursor, gap.any isBreak⟩
      else
        if !tabsAreInside indent cursor.column false nextGap then none
        else if !inFlow && (behind.column : Int) < indent then
          some ⟨text, behind, nextGap.any isBreak⟩
        else plainFrom? inFlow indent fuel text nextGap behind

def plain? (inFlow : Bool) (indent : Int) (cursor : Cursor) : Option Plain :=
  plainFrom? inFlow indent (cursor.rest.length + 1) [] [] cursor

/-! Quoted scalars. -/

def codedChar? (count : Nat) (chars : List Char) : Option Char := do
  let digits := chars.take count
  if digits.length < count then none
  let value ← Text.hexValue? digits
  if h : value.isValidChar then some (Char.ofNatAux value h) else none

def shortEscapes : List (Char × Char) :=
  [ ('0', '\x00'), ('a', '\x07'), ('b', '\x08'), ('t', '\t'), ('\t', '\t'), ('n', '\n'),
    ('v', '\x0b'), ('f', '\x0c'), ('r', '\r'), ('e', '\x1b'), (' ', ' '), ('"', '"'), ('/', '/'),
    ('\\', '\\'), ('N', '\x85'), ('_', '\xa0'), ('L', '\u2028'), ('P', '\u2029') ]

/-- How many digits follow the letter of a long escape. -/
def longEscapes : List (Char × Nat) := [('x', 2), ('u', 4), ('U', 8)]

def escape? : List Char → Option (Char × Nat)
  | [] => none
  | c :: rest =>
    match longEscapes.lookup c with
    | some count => (codedChar? count rest).map fun char => (char, count + 1)
    | none => (shortEscapes.lookup c).map fun char => (char, 1)

inductive PartEnd where
  | gap
  | closing
  | escapedBreak

def quotedPart? (style : Style) : Nat → List Char → Option (List Char × Nat × PartEnd)
  | 0, _ => none
  | _ + 1, [] => some ([], 0, .gap)
  | fuel + 1, c :: rest =>
    let more (char : Char) (length : Nat) (rest : List Char) :=
      (quotedPart? style fuel rest).map fun (text, n, ending) => (char :: text, n + length, ending)
    let single := style == .singleQuoted
    if isGap c then some ([], 0, .gap)
    else if single && c == '\'' && rest.head? == some '\'' then more '\'' 2 rest.tail
    else if c == (if single then '\'' else '"') then some ([], 0, .closing)
    else if !single && c == '\\' then
      if (rest.head?.map isBreak).getD false then some ([], 0, .escapedBreak)
      else (escape? rest).bind fun (char, length) => more char (length + 1) (rest.drop length)
    else more c 1 rest

def quotedFrom? (style : Style) : Nat → List Char → Cursor → Option (List Char × Cursor)
  | 0, _, _ => none
  | fuel + 1, text, cursor => do
    if cursor.isDocumentBoundary || cursor.rest.isEmpty then none
    let (part, length, ending) ← quotedPart? style (cursor.rest.length + 1) cursor.rest
    let text := text ++ part
    let cursor := cursor.skip length
    match ending with
    | .closing => some (text, cursor.next)
    | .escapedBreak =>
      let (gap, behind) := (cursor.skip 2).span isGap
      quotedFrom? style fuel (text ++ gap.filter isBreak) behind
    | .gap =>
      let (gap, behind) := cursor.span isGap
      quotedFrom? style fuel (text ++ foldGap gap) behind

def quoted? (style : Style) (cursor : Cursor) : Option (List Char × Cursor) :=
  quotedFrom? style (cursor.rest.length + 1) [] cursor.next

/-! Blocks. -/

inductive Chomping where
  | strip
  | clip
  | keep
deriving DecidableEq

def indentDigit? (cursor : Cursor) : Option (Option Nat × Cursor) :=
  match cursor.rest with
  | c :: _ =>
    if c = '0' then none
    else if c.isDigit then some (some (Text.digitValue c), cursor.next)
    else some (none, cursor)
  | [] => some (none, cursor)

def chomping? (cursor : Cursor) : Option Chomping × Cursor :=
  if cursor.isAt '+' then (some .keep, cursor.next)
  else if cursor.isAt '-' then (some .strip, cursor.next)
  else (none, cursor)

def blockHeader? (cursor : Cursor) : Option (Chomping × Option Nat × Cursor) := do
  let (first, cursor) := chomping? cursor
  let (digit, cursor) ← indentDigit? cursor
  let (last, cursor) :=
    if first.isNone && digit.isSome then chomping? cursor else (none, cursor)
  return ((first.or last).getD .clip, digit, cursor)

/-- Empty lines of a block: their line breaks, the place behind them and the widest indentation.
Without an indentation, all spaces belong to it; a tab does not. -/
def emptyLines? (indent : Option Nat) (breaks : List Char) (widest : Nat) :
    Nat → Cursor → Option (List Char × Cursor × Nat)
  | 0, _ => none
  | fuel + 1, cursor =>
    let inside := (indent.map fun n => decide (cursor.column < n)).getD true
    if inside && cursor.isAt ' ' then emptyLines? indent breaks widest fuel cursor.next
    else
      let widest := max widest cursor.column
      if inside && cursor.isAt '\t' then none
      else
        match cursor.rest with
        | [] => some (breaks, cursor, widest)
        | c :: _ =>
          if isBreak c then emptyLines? indent (breaks ++ [c]) widest fuel cursor.next
          else some (breaks, cursor, widest)

/-- What has been read of a block. The last line break and those of the empty lines behind it are
kept apart. -/
structure Block where
  text : List Char
  lastBreak : List Char
  breaks : List Char
  /-- The last line begins with a space or a tab. -/
  wasIndented : Bool

def Block.joint (block : Block) (style : Style) (isIndented : Bool) : List Char :=
  if style == .folded && block.lastBreak == ['\n'] && !block.wasIndented && !isIndented then
    if block.breaks = [] then [' '] else block.breaks
  else block.lastBreak ++ block.breaks

def blockLines? (style : Style) (indent : Nat) : Nat → Block → Cursor → Option (Block × Cursor)
  | 0, _, _ => none
  | fuel + 1, block, cursor =>
    if cursor.column != indent || cursor.rest.isEmpty then some (block, cursor)
    else do
      let isIndented := (cursor.rest.head?.map isSpaceOrTab).getD false
      let (line, cursor) := cursor.span fun c => !isBreak c
      let lastBreak := cursor.rest.take 1
      let (breaks, cursor, _) ← emptyLines? (some indent) [] 0 (cursor.rest.length + 1) cursor.next
      blockLines? style indent fuel
        ⟨block.text ++ block.joint style isIndented ++ line, lastBreak, breaks, isIndented⟩ cursor

def block? (style : Style) (parentIndent : Int) (cursor : Cursor) :
    Option (List Char × Cursor) := do
  let (chomping, digit, cursor) ← blockHeader? cursor.next
  let cursor ← cursor.finishLine?
  let given := digit.map fun n => n + (max parentIndent 0).toNat
  let (breaks, cursor, widest) ← emptyLines? given [] 0 (cursor.rest.length + 1) cursor
  let indent := given.getD (max widest (max (parentIndent + 1) 1).toNat)
  let (block, cursor) ←
    blockLines? style indent (cursor.rest.length + 1) ⟨[], [], breaks, false⟩ cursor
  let ending := match chomping with
    | .strip => []
    | .clip => block.lastBreak
    | .keep => block.lastBreak ++ block.breaks
  return (block.text ++ ending, cursor)

end Scalar

end ReleaseNotes.Yaml
