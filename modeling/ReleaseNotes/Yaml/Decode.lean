import ReleaseNotes.Failure
import ReleaseNotes.Yaml.Expansion

/-!
Reading data out of YAML documents. A text is any scalar as it is written. An empty plain scalar
stands for an empty list or record; only an optional value can be null. A record names each of its
fields once and no others. A document that grows too far is not read.
-/

namespace ReleaseNotes.Yaml

abbrev Decoder (α : Type) := Document → Node → Option α

namespace Decoder

variable {α β : Type}

def text : Decoder String := fun document node =>
  match document.resolve node with
  | some (.scalar _ _ _ text) => some text
  | _ => none

def isNull (text : String) : Bool :=
  ["~", "null", "Null", "NULL"].contains text

def nullTag : String := "tag:yaml.org,2002:null"

/-- There is a value unless a plain scalar says that there is none. A tag makes a value of any
scalar, but the tag for no value allows no other. -/
def optional (decoder : Decoder α) : Decoder (Option α) := fun document node => do
  let node ← document.resolve node
  match node with
  | .scalar _ none .plain text =>
    if text = "" || isNull text then some none else (decoder document node).map some
  | .scalar _ (some tag) .plain text =>
    if tag = nullTag then (if isNull text then some none else none)
    else (decoder document node).map some
  | _ => (decoder document node).map some

/-- A scalar whose words are taken for values: a plain one, or a literal block with the tag of
its kind. -/
def bareText (tag : String) : Decoder String := fun document node =>
  match document.resolve node with
  | some (.scalar _ _ .plain text) => some text
  | some (.scalar _ (some given) .literal text) => if given = tag then some text else none
  | _ => none

def bool : Decoder Bool := fun document node => do
  let text ← bareText "tag:yaml.org,2002:bool" document node
  if ["true", "True", "TRUE"].contains text then some true
  else if ["false", "False", "FALSE"].contains text then some false
  else none

def numeral? (base : Nat) (digits : List Char) : Option Nat := do
  let values ← digits.mapM Text.hexDigit?
  if values = [] || values.any (base ≤ ·) then none
  else some (Text.valueInBase base values)

def baseMarks : List (Char × Nat) := [('x', 16), ('o', 8), ('b', 2)]

/-- An unsigned number, which may have a plus. A decimal one has no zeros at its start. -/
def unsigned? (chars : List Char) : Option Nat :=
  let digits := if chars.head? = some '+' then chars.tail else chars
  match digits with
  | '0' :: mark :: rest =>
    match baseMarks.lookup mark with
    | some base => numeral? base rest
    | none => none
  | digits => if digits.all Char.isDigit then numeral? 10 digits else none

def unsigned (bound : Nat) : Decoder Nat := fun document node => do
  let text ← bareText "tag:yaml.org,2002:int" document node
  (unsigned? text.toList).filter (· < bound)

def isEmptyNode : Node → Bool
  | .scalar _ _ .plain text => text == ""
  | _ => false

def list (decoder : Decoder α) : Decoder (List α) := fun document node => do
  let node ← document.resolve node
  match node with
  | .sequence _ _ items => items.mapM (decoder document)
  | node => if isEmptyNode node then some [] else none

/-- One of some words, either as a scalar or as a tag on nothing. -/
def word (read : String → Option α) : Decoder α := fun document node => do
  match document.resolve node with
  | some node =>
    let mark := (node.tag?.map String.toList).getD []
    if mark.head? = some '!' then
      let name := if mark.length = 1 then mark else mark.tail
      match node with
      | .scalar _ _ .plain text =>
        if text = "" || isNull text then read (String.ofList name) else none
      | _ => none
    else
      match node with
      | .scalar _ _ _ text => read text
      | _ => none
  | none => none

def pairs : Decoder (List (String × Node)) := fun document node => do
  let node ← document.resolve node
  match node with
  | .mapping _ _ pairs => pairs.mapM fun (key, value) => do return (← text document key, value)
  | node => if isEmptyNode node then some [] else none

def setPair (name value : String) : List (String × String) → List (String × String)
  | [] => [(name, value)]
  | pair :: rest => if pair.1 = name then (name, value) :: rest else pair :: setPair name value rest

/-- Texts by free names. The last one of a name counts. -/
def textMap : Decoder (List (String × String)) := fun document node => do
  let pairs ← pairs document node
  let texts ← pairs.mapM fun (name, value) => do return (name, ← text document value)
  return texts.foldl (fun map pair => setPair pair.1 pair.2 map) []

structure Fields where
  document : Document
  given : List (String × Node)

namespace Fields

def required? (fields : Fields) (name : String) (decoder : Decoder α) : Option α :=
  (fields.given.lookup name).bind (decoder fields.document)

def optional? (fields : Fields) (name : String) (decoder : Decoder α) : Option (Option α) :=
  match fields.given.lookup name with
  | some node => Decoder.optional decoder fields.document node
  | none => some none

def withDefault? (fields : Fields) (name : String) (default : α) (decoder : Decoder α) : Option α :=
  match fields.given.lookup name with
  | some node => decoder fields.document node
  | none => some default

end Fields

def record (names : List String) (read : Fields → Option α) : Decoder α := fun document node => do
  let given ← pairs document node
  let used := given.map Prod.fst
  if used.all names.contains && used.Nodup then read ⟨document, given⟩ else none

/-- Reads a whole text. A text without a token is an empty value. -/
def decode (decoder : Decoder α) (source : String) : Except Cause α :=
  let value := do
    let document ← Document.ofText? source
    if !document.isReadable then none
    decoder document (document.root.getD Reader.emptyScalar)
  match value with
  | some value => .ok value
  | none => .error .malformedYaml

end Decoder

end ReleaseNotes.Yaml
