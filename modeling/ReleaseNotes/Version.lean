import ReleaseNotes.Text.Digits
import ReleaseNotes.Text.Separated
import ReleaseNotes.Text.Lowercase

/-!
The order of free-form versions such as 1.0.0-alpha, 3.0 or 4. A version is cut into items at the
separators and wherever ASCII digits meet other characters; the items are compared one by one. A
missing item stands for zero beside a number and for a plain release beside a qualifier.
-/

namespace ReleaseNotes.Version

open Text

def snapshotSuffix : String := "-SNAPSHOT"

def stripSnapshot (version : String) : String :=
  match afterStart? snapshotSuffix.toList.reverse version.toList.reverse with
  | some rest => String.ofList rest.reverse
  | none => version

inductive Item where
  | number (value : Nat)
  | qualifier (word : String)
deriving DecidableEq, Repr

def isSeparator (c : Char) : Bool :=
  c == '.' || c == '-' || c == '_'

/-- Digits denote a number below two to the power of 64; everything else is a qualifier, and its
letter case does not matter. -/
def Item.ofRun (run : List Char) : Item :=
  if run.all Char.isDigit && valueOfDigits run < UInt64.size then .number (valueOfDigits run)
  else .qualifier (String.ofList (lowerChars run))

def runs (part : List Char) : List (List Char) :=
  part.splitBy fun c d => c.isDigit == d.isDigit

def items (version : String) : List Item :=
  (((trimChars version.toList).splitOnP isSeparator).flatMap runs).map Item.ofRun

/-- The qualifiers with a place of their own; the empty one is the plain release. -/
def knownQualifiers : List String :=
  ["alpha", "beta", "milestone", "rc", "snapshot", "", "sp"]

def canonicalQualifier (word : String) : String :=
  if word = "a" then "alpha"
  else if word = "b" then "beta"
  else if word = "m" then "milestone"
  else if word = "cr" then "rc"
  else if word = "ga" ∨ word = "final" ∨ word = "release" then ""
  else word

/-- The place of a qualifier. Unknown words follow the known ones, in the order of their texts. -/
def qualifierRank (word : String) : Nat × String :=
  let canonical := canonicalQualifier word
  match knownQualifiers.idxOf? canonical with
  | some place => (place, "")
  | none => (knownQualifiers.length, canonical)

def compareQualifiers (left right : String) : Ordering :=
  (Ord.compare (qualifierRank left).1 (qualifierRank right).1).then
    (Ord.compare (qualifierRank left).2 (qualifierRank right).2)

/-- Any number is newer than any qualifier. -/
def compareItem : Item → Item → Ordering
  | .number l, .number r => Ord.compare l r
  | .number _, .qualifier _ => .gt
  | .qualifier _, .number _ => .lt
  | .qualifier l, .qualifier r => compareQualifiers l r

/-- The item that a missing one stands for beside a given item. -/
def Item.absentBeside : Item → Item
  | .number _ => .number 0
  | .qualifier _ => .qualifier ""

def compareItems : List Item → List Item → Ordering
  | [], [] => .eq
  | l :: left, [] => (compareItem l l.absentBeside).then (compareItems left [])
  | [], r :: right => (compareItem r.absentBeside r).then (compareItems [] right)
  | l :: left, r :: right => (compareItem l r).then (compareItems left right)

def compare (left right : String) : Ordering :=
  compareItems (items left) (items right)

def isSnapshot (version : String) : Bool :=
  snapshotSuffix.toList.isSuffixOf version.toList

end ReleaseNotes.Version
