import ReleaseNotes.Text.CaseTable

/-!
Lower-casing with the full Unicode mapping. Two characters need more than a table: a capital I with
a dot becomes two characters, and a capital sigma takes its final form when a cased letter comes
before it and none after it, not counting case-ignorable characters.
-/

namespace ReleaseNotes.Text

/-- The lower-case form of a character that has a single one. -/
def lowerChar (c : Char) : Char :=
  if c.toNat < 128 then c.toLower
  else
    match lowerCaseRuns.find? (·.contains c.toNat) with
    | some run => Char.ofNat (c.toNat + run.shift).toNat
    | none => c

/-- The next character that is not case-ignorable is cased. -/
def meetsCased (chars : List Char) : Bool :=
  (chars.find? fun c => !isCaseIgnorable c).any isCased

/-- The lower-case form of a character between the reversed text before it and the text after. -/
def lowerIn (before : List Char) (c : Char) (after : List Char) : List Char :=
  if c = 'Σ' then [if meetsCased before && !meetsCased after then 'ς' else 'σ']
  else if c = 'İ' then ['i', '\u0307']
  else [lowerChar c]

def lowerFrom (before : List Char) : List Char → List Char
  | [] => []
  | c :: after => lowerIn before c after ++ lowerFrom (c :: before) after

def lowerChars (chars : List Char) : List Char := lowerFrom [] chars

def lowercase (text : String) : String := String.ofList (lowerChars text.toList)

def asciiLowercase (text : String) : String := String.ofList (text.toList.map Char.toLower)

end ReleaseNotes.Text
