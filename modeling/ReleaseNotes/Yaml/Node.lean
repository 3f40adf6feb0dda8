import ReleaseNotes.Yaml.Token

/-!
YAML documents as trees. Anchors are numbered, and an alias knows the number of its anchor. A
document is empty when the text holds no token.
-/

namespace ReleaseNotes.Yaml

inductive Node where
  | alias (target : Nat)
  | scalar (anchor : Option Nat) (tag : Option String) (style : Style) (text : String)
  | sequence (anchor : Option Nat) (tag : Option String) (items : List Node)
  | mapping (anchor : Option Nat) (tag : Option String) (pairs : List (Node × Node))

namespace Node

def tag? : Node → Option String
  | .alias _ => none
  | .scalar _ tag .. | .sequence _ tag _ | .mapping _ tag _ => tag

mutual

def anchored : Node → List (Nat × Node)
  | .alias _ => []
  | .scalar anchor tag style text =>
    anchor.toList.map fun n => (n, .scalar anchor tag style text)
  | .sequence anchor tag items =>
    (anchor.toList.map fun n => (n, .sequence anchor tag items)) ++ anchoredItems items
  | .mapping anchor tag pairs =>
    (anchor.toList.map fun n => (n, .mapping anchor tag pairs)) ++ anchoredPairs pairs

def anchoredItems : List Node → List (Nat × Node)
  | [] => []
  | item :: items => item.anchored ++ anchoredItems items

def anchoredPairs : List (Node × Node) → List (Nat × Node)
  | [] => []
  | (key, value) :: pairs => key.anchored ++ value.anchored ++ anchoredPairs pairs

end

end Node

structure Document where
  root : Option Node
  /-- The nodes with an anchor. Of those with one number, the last one begun counts. -/
  targets : List (Nat × Node)

def Document.ofNode (root : Node) : Document := ⟨some root, root.anchored.reverse⟩

/-- The node that an alias stands for. Other nodes stand for themselves. -/
def Document.resolve (document : Document) : Node → Option Node
  | .alias target => document.targets.lookup target
  | node => some node

/-! Building the tree from tokens. -/

/-- What is left to read, what handles of tags stand for, and the numbers of the anchors. -/
structure Reader where
  tokens : List Token
  handles : List (String × String)
  anchors : List (String × Nat)

namespace Reader

def usualHandles : List (String × String) := [("!", "!"), ("!!", "tag:yaml.org,2002:")]

def next (reader : Reader) : Reader := { reader with tokens := reader.tokens.tail }

def isAt (reader : Reader) (token : Token) : Bool := reader.tokens.head? == some token

def isAtOneOf (reader : Reader) (tokens : List Token) : Bool := tokens.any reader.isAt

def emptyScalar : Node := .scalar none none .plain ""

/-- Numbers an anchor. The number is how many names there are so far; a name that is used again
stands for its new anchor from now on. -/
def number (reader : Reader) (name : String) : Reader × Nat :=
  let n := reader.anchors.length
  let others := reader.anchors.filter (·.1 != name)
  ({ reader with anchors := (name, n) :: others }, n)

def tagMeaning? (reader : Reader) (handle suffix : String) : Option String :=
  if handle = "" then some suffix else (reader.handles.lookup handle).map (· ++ suffix)

/-- An anchor and a tag before a node, in either order and not more than one of each. -/
def properties? (reader : Reader) : Option (Option String × Option String × Reader) :=
  match reader.tokens with
  | .anchor name :: .tag handle suffix :: _ | .tag handle suffix :: .anchor name :: _ =>
    (reader.tagMeaning? handle suffix).map fun tag => (some name, some tag, reader.next.next)
  | .anchor name :: _ => some (some name, none, reader.next)
  | .tag handle suffix :: _ =>
    (reader.tagMeaning? handle suffix).map fun tag => (none, some tag, reader.next)
  | _ => some (none, none, reader)

mutual

/-- Reads a node. Block collections can begin only in blocks, and entries of a sequence can follow a
key in its own column. -/
def node? (fuel : Nat) (inBlock afterKey : Bool) (reader : Reader) : Option (Node × Reader) :=
  match fuel with
  | 0 => none
  | fuel + 1 =>
    match reader.tokens with
    | .alias name :: _ => (reader.anchors.lookup name).map fun n => (.alias n, reader.next)
    | _ => do
      let (name, tag, reader) ← reader.properties?
      let (reader, anchor) := match name with
        | some name =>
          let (reader, n) := reader.number name
          (reader, some n)
        | none => (reader, none)
      match reader.tokens with
      | .scalar style text :: _ =>
        some (.scalar anchor tag style text, reader.next)
      | .flowSequenceStart :: _ =>
        let (items, reader) ← flowItems? fuel true reader.next
        return (.sequence anchor tag items, reader)
      | .flowMappingStart :: _ =>
        let (pairs, reader) ← flowPairs? fuel true reader.next
        return (.mapping anchor tag pairs, reader)
      | token :: _ =>
        if afterKey && token == .blockEntry then
          let (items, reader) ← entries? fuel reader
          return (.sequence anchor tag items, reader)
        else if inBlock && token == .blockSequenceStart then
          let (items, reader) ← blockItems? fuel reader.next
          return (.sequence anchor tag items, reader)
        else if inBlock && token == .blockMappingStart then
          let (pairs, reader) ← blockPairs? fuel reader.next
          return (.mapping anchor tag pairs, reader)
        else bare? anchor tag reader
      | [] => bare? anchor tag reader

def bare? (anchor : Option Nat) (tag : Option String) (reader : Reader) : Option (Node × Reader) :=
  if anchor.isSome || tag.isSome then some (.scalar anchor tag .plain "", reader) else none

def nodeUnless? (fuel : Nat) (inBlock afterKey : Bool) (stops : List Token) (reader : Reader) :
    Option (Node × Reader) :=
  match fuel with
  | 0 => none
  | fuel + 1 =>
    if reader.isAtOneOf stops then some (emptyScalar, reader)
    else node? fuel inBlock afterKey reader

def blockItems? (fuel : Nat) (reader : Reader) : Option (List Node × Reader) :=
  match fuel with
  | 0 => none
  | fuel + 1 =>
    if reader.isAt .blockEntry then do
      let (item, reader) ← nodeUnless? fuel true false [.blockEntry, .blockEnd] reader.next
      let (items, reader) ← blockItems? fuel reader
      return (item :: items, reader)
    else if reader.isAt .blockEnd then some ([], reader.next)
    else none

/-- Entries in the column of the key before them. They have no token for their end. -/
def entries? (fuel : Nat) (reader : Reader) : Option (List Node × Reader) :=
  match fuel with
  | 0 => none
  | fuel + 1 =>
    if reader.isAt .blockEntry then do
      let (item, reader) ←
        nodeUnless? fuel true false [.blockEntry, .key, .value, .blockEnd] reader.next
      let (items, reader) ← entries? fuel reader
      return (item :: items, reader)
    else some ([], reader)

def blockPairs? (fuel : Nat) (reader : Reader) : Option (List (Node × Node) × Reader) :=
  match fuel with
  | 0 => none
  | fuel + 1 =>
    let stops : List Token := [.key, .value, .blockEnd]
    if reader.isAt .key then do
      let (key, reader) ← nodeUnless? fuel true true stops reader.next
      let (value, reader) ←
        if reader.isAt .value then nodeUnless? fuel true true stops reader.next
        else some (emptyScalar, reader)
      let (pairs, reader) ← blockPairs? fuel reader
      return ((key, value) :: pairs, reader)
    else if reader.isAt .blockEnd then some ([], reader.next)
    else none

/-- Items of a flow sequence up to its end. An item can be a single pair. -/
def flowItems? (fuel : Nat) (first : Bool) (reader : Reader) : Option (List Node × Reader) :=
  match fuel with
  | 0 => none
  | fuel + 1 =>
    if reader.isAt .flowSequenceEnd then some ([], reader.next)
    else if !first && !reader.isAt .flowEntry then none
    else
      let reader := if first then reader else reader.next
      if reader.isAt .flowSequenceEnd then some ([], reader.next)
      else do
        let (item, reader) ←
          if reader.isAt .key then singlePair? fuel reader.next else node? fuel false false reader
        let (items, reader) ← flowItems? fuel false reader
        return (item :: items, reader)

/-- A pair in a sequence, as a mapping of its own. What follows an empty key is passed over. -/
def singlePair? (fuel : Nat) (reader : Reader) : Option (Node × Reader) :=
  match fuel with
  | 0 => none
  | fuel + 1 => do
    let (key, reader) ←
      if reader.isAtOneOf [.value, .flowEntry, .flowSequenceEnd] then
        some (emptyScalar, reader.next)
      else node? fuel false false reader
    let (value, reader) ←
      if reader.isAt .value then
        nodeUnless? fuel false false [.flowEntry, .flowSequenceEnd] reader.next
      else some (emptyScalar, reader)
    return (.mapping none none [(key, value)], reader)

def flowPairs? (fuel : Nat) (first : Bool) (reader : Reader) :
    Option (List (Node × Node) × Reader) :=
  match fuel with
  | 0 => none
  | fuel + 1 =>
    if reader.isAt .flowMappingEnd then some ([], reader.next)
    else if !first && !reader.isAt .flowEntry then none
    else
      let reader := if first then reader else reader.next
      if reader.isAt .flowMappingEnd then some ([], reader.next)
      else do
        let (pair, reader) ←
          if reader.isAt .key then do
            let (key, reader) ←
              nodeUnless? fuel false false [.value, .flowEntry, .flowMappingEnd] reader.next
            let (value, reader) ←
              if reader.isAt .value then
                nodeUnless? fuel false false [.flowEntry, .flowMappingEnd] reader.next
              else some (emptyScalar, reader)
            some ((key, value), reader)
          else do
            let (key, reader) ← node? fuel false false reader
            some ((key, emptyScalar), reader)
        let (pairs, reader) ← flowPairs? fuel false reader
        return (pair :: pairs, reader)

end

def directives? (reader : Reader) (hasVersion : Bool) : List Token → Option Reader
  | .versionDirective major minor :: tokens =>
    if hasVersion || major != 1 || (minor != 1 && minor != 2) then none
    else directives? reader true tokens
  | .tagDirective handle start :: tokens =>
    if (reader.handles.lookup handle).isSome then none
    else
      let handles := reader.handles ++ [(handle, start)]
      directives? { reader with handles := handles } hasVersion tokens
  | tokens => some { reader with tokens := tokens, handles := reader.handles ++ usualHandles }

def root? (reader : Reader) : Option (Node × Reader) := do
  let fuel := 3 * reader.tokens.length + 8
  let marked ← directives? reader false reader.tokens
  if marked.isAt .documentStart then
    match marked.next.tokens with
    | [] | .documentStart :: _ | .documentEnd :: _ | .versionDirective .. :: _
    | .tagDirective .. :: _ => return (emptyScalar, marked.next)
    | _ => node? fuel true false marked.next
  else if marked.tokens.length = reader.tokens.length then node? fuel true false marked
  else none

end Reader

def Document.ofText? (text : String) : Option Document := do
  let tokens ← Token.ofText? text
  if tokens = [] then return ⟨none, []⟩
  let (root, reader) ← Reader.root? ⟨tokens, [], []⟩
  if (reader.tokens.dropWhile (· == .documentEnd)).isEmpty then return .ofNode root else none

end ReleaseNotes.Yaml
