import ReleaseNotes.Text.Separated
import ReleaseNotes.Text.Lowercase

/-!
The settings of a tracker query, whatever the form of the query is: the project, the fields that are
restricted to listed values, the sort columns and a filter that stands for the whole query.
-/

namespace ReleaseNotes.Query

open Text

inductive ListField where
  | fixVersion
  | status
  | resolution
  | priority
  | issueType
  | component
deriving DecidableEq, Repr

/-- One setting. Lists come either as one text with commas or as separate items. -/
inductive Setting where
  | filter (text : String)
  | project (name : String)
  | fixVersion (name : String)
  | values (field : ListField) (text : String)
  | valueList (field : ListField) (items : List String)
  | sort (columns : String)
  | urlEncode (on : Bool)
deriving DecidableEq, Repr

structure SortColumn where
  name : String
  descending : Bool
deriving DecidableEq, Repr

/-- Reads a name that may end with a word for the direction. Letter case does not matter, and the
direction may stand alone. -/
def SortColumn.ofText (text : String) : SortColumn :=
  let chars := lowerChars (trimChars text.toList)
  let direction? (word : List Char) : Option Bool :=
    if word = "desc".toList then some true
    else if word = "asc".toList then some false
    else none
  let whole : SortColumn := ⟨String.ofList (trimChars chars), false⟩
  match splitLast? isBlank chars with
  | some (name, word) =>
    match direction? word with
    | some descending => ⟨String.ofList (trimChars name), descending⟩
    | none => whole
  | none =>
    match direction? chars with
    | some descending => ⟨"", descending⟩
    | none => whole

def sortColumns (text : String) : List SortColumn :=
  (splitAt ',' text).map SortColumn.ofText

end ReleaseNotes.Query
