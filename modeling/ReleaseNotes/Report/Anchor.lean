/-!
The HTML anchor of a version: a letter first, then letters, digits and three marks.
-/

namespace ReleaseNotes.Anchor

/-- A character that stays. Every other one becomes an underscore. -/
def isKept (c : Char) : Bool :=
  c.isAlphanum || c == '-' || c == '_' || c == '.'

def startsWithLetter : List Char → Bool
  | [] => false
  | c :: _ => c.isAlpha

def ofVersion (version : String) : String :=
  let chars := version.toList.map fun c => if isKept c then c else '_'
  String.ofList (if startsWithLetter chars then chars else 'a' :: chars)

end ReleaseNotes.Anchor
