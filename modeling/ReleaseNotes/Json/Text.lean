import ReleaseNotes.Json.Basic
import ReleaseNotes.Text.Digits

/-!
Reading JSON texts. The characters are cut into tokens, and the tokens are folded over a stack of
open containers, so a text is read in one pass from left to right.
-/

namespace ReleaseNotes.Json

/-- Punctuation stands for itself; atoms are numbers and words; quoted tokens still hold their
escapes. -/
inductive Token where
  | punctuation (c : Char)
  | atom (chars : List Char)
  | quoted (chars : List Char)
deriving DecidableEq, Repr

namespace Token

/-- Where the scan of a text stands. The characters of an unfinished token are in reverse order. -/
inductive Scan where
  | between
  | atom (reversed : List Char)
  | quoted (reversed : List Char)
  | escaped (reversed : List Char)

def isPunctuation (c : Char) : Bool :=
  c == '[' || c == ']' || c == '\x7b' || c == '\x7d' || c == ',' || c == ':'

def isSpace (c : Char) : Bool :=
  c == ' ' || c == '\n' || c == '\t' || c == '\r'

def step (scan : Scan) (c : Char) : Scan × List Token :=
  match scan with
  | .between =>
    if isSpace c then (.between, [])
    else if isPunctuation c then (.between, [.punctuation c])
    else if c = '"' then (.quoted [], [])
    else (.atom [c], [])
  | .atom reversed =>
    if isSpace c then (.between, [.atom reversed.reverse])
    else if isPunctuation c then (.between, [.atom reversed.reverse, .punctuation c])
    else if c = '"' then (.quoted [], [.atom reversed.reverse])
    else (.atom (c :: reversed), [])
  | .quoted reversed =>
    if c = '"' then (.between, [.quoted reversed.reverse])
    else if c = '\\' then (.escaped (c :: reversed), [])
    else (.quoted (c :: reversed), [])
  | .escaped reversed => (.quoted (c :: reversed), [])

def scanFrom (scan : Scan) : List Char → Option (List Token)
  | [] =>
    match scan with
    | .between => some []
    | .atom reversed => some [.atom reversed.reverse]
    | .quoted _ | .escaped _ => none
  | c :: rest =>
    let (next, tokens) := step scan c
    (scanFrom next rest).map (tokens ++ ·)

def scan? (chars : List Char) : Option (List Token) := scanFrom .between chars

end Token

inductive Unit16 where
  | char (c : Char)
  | unit (n : Nat)
deriving DecidableEq, Repr

def simpleEscape? : Char → Option Char
  | '"' => some '"'
  | '\\' => some '\\'
  | '/' => some '/'
  | 'b' => some '\x08'
  | 'f' => some '\x0c'
  | 'n' => some '\n'
  | 'r' => some '\r'
  | 't' => some '\t'
  | _ => none

/-- The units of a quoted token. Control characters have to be escaped. -/
def units? : List Char → Option (List Unit16)
  | [] => some []
  | '\\' :: 'u' :: a :: b :: c :: d :: rest => do
    let n ← Text.hexValue? [a, b, c, d]
    return .unit n :: (← units? rest)
  | '\\' :: e :: rest => do
    let c ← simpleEscape? e
    return .char c :: (← units? rest)
  | c :: rest => if c.toNat < 32 || c == '\\' then none else (units? rest).map (.char c :: ·)

/-- The text of units in which high and low surrogates come in pairs. -/
def charsOfUnits? : List Unit16 → Option (List Char)
  | [] => some []
  | .char c :: rest => (charsOfUnits? rest).map (c :: ·)
  | .unit high :: rest =>
    if 0xD800 ≤ high ∧ high ≤ 0xDBFF then
      match rest with
      | .unit low :: rest =>
        if 0xDC00 ≤ low ∧ low ≤ 0xDFFF then
          (charsOfUnits? rest).map
            (Char.ofNat (0x10000 + (high - 0xD800) * 0x400 + (low - 0xDC00)) :: ·)
        else none
      | _ => none
    else if 0xDC00 ≤ high ∧ high ≤ 0xDFFF then none
    else (charsOfUnits? rest).map (Char.ofNat high :: ·)

def quotedText? (chars : List Char) : Option (Option String) :=
  (units? chars).map fun units => (charsOfUnits? units).map String.ofList

def someDigits? (chars : List Char) : Option (List Char × List Char) :=
  match chars.span Char.isDigit with
  | ([], _) => none
  | parts => some parts

def exponent? : List Char → Option (Option Int)
  | [] => some none
  | e :: rest =>
    if e = 'e' ∨ e = 'E' then
      match rest with
      | '-' :: digits => (someDigits? digits).bind fun (ds, rest) =>
          if rest.isEmpty then some (some (-(Text.valueOfDigits ds : Int))) else none
      | '+' :: digits => (someDigits? digits).bind fun (ds, rest) =>
          if rest.isEmpty then some (some (Text.valueOfDigits ds : Int)) else none
      | digits => (someDigits? digits).bind fun (ds, rest) =>
          if rest.isEmpty then some (some (Text.valueOfDigits ds : Int)) else none
    else none

/-- A number: no digits before a leading zero's point but the zero, and digits after a point. -/
def numeral? (chars : List Char) : Option Numeral := do
  let (negative, chars) :=
    match chars with
    | '-' :: rest => (true, rest)
    | _ => (false, chars)
  let (whole, rest) ← someDigits? chars
  if whole.length > 1 && whole.head? == some '0' then none
  let (fraction, rest) ←
    match rest with
    | '.' :: rest => someDigits? rest
    | _ => some ([], rest)
  let exponent ← exponent? rest
  return ⟨negative, Text.valueOfDigits (whole ++ fraction), exponent.getD 0 - fraction.length,
    fraction.isEmpty && exponent.isNone⟩

def atom? (chars : List Char) : Option Json :=
  if chars = "null".toList then some .null
  else if chars = "true".toList then some (.bool true)
  else if chars = "false".toList then some (.bool false)
  else (numeral? chars).map .number

/-- A container that is still open, with what it holds so far in reverse order. -/
inductive Open where
  | array (items : List Json)
  | object (fields : List (Option String × Json)) (name : Option String)

inductive Expected where
  | value
  | valueOrClose
  | nameOrClose (fields : List (Option String × Json))
  | name (fields : List (Option String × Json))
  | colon
  | commaOrClose (last : Json)

def completed (stack : List Open) (value : Json) : Expected × List Open :=
  (.commaOrClose value, stack)

def step (state : Expected × List Open) (token : Token) : Option (Expected × List Open) :=
  let (expected, stack) := state
  match expected, token with
  | .nameOrClose fields, .quoted chars | .name fields, .quoted chars =>
    (quotedText? chars).map fun name => (.colon, .object fields name :: stack)
  | .nameOrClose fields, .punctuation '\x7d' => some (completed stack (.object fields.reverse))
  | .colon, .punctuation ':' => some (.value, stack)
  | .value, .quoted chars | .valueOrClose, .quoted chars =>
    (quotedText? chars).map fun text => completed stack (.string text)
  | .value, .atom chars | .valueOrClose, .atom chars => (atom? chars).map (completed stack)
  | .value, .punctuation '[' | .valueOrClose, .punctuation '[' =>
    some (.valueOrClose, .array [] :: stack)
  | .value, .punctuation '\x7b' | .valueOrClose, .punctuation '\x7b' => some (.nameOrClose [], stack)
  | .valueOrClose, .punctuation ']' =>
    match stack with
    | .array items :: stack => some (completed stack (.array items.reverse))
    | _ => none
  | .commaOrClose last, .punctuation c =>
    match stack with
    | .array items :: stack =>
      if c = ',' then some (.value, .array (last :: items) :: stack)
      else if c = ']' then some (completed stack (.array (last :: items).reverse))
      else none
    | .object fields name :: stack =>
      if c = ',' then some (.name ((name, last) :: fields), stack)
      else if c = '\x7d' then some (completed stack (.object ((name, last) :: fields).reverse))
      else none
    | [] => none
  | _, _ => none

def parse? (text : String) : Option Json := do
  let tokens ← Token.scan? text.toList
  let state ← tokens.foldlM step (.value, [])
  match state with
  | (.commaOrClose value, []) => some value
  | _ => none

end ReleaseNotes.Json
