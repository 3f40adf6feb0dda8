import ReleaseNotes.Failure
import ReleaseNotes.Text.Blank
import ReleaseNotes.Text.Lowercase

/-!
Where releases come from: the changes file of the project, or an issue tracker.
-/

namespace ReleaseNotes

open Text

inductive Origin where
  | changesFile
  | jira
  | gitHub
deriving DecidableEq, Repr

namespace Origin

def all : List Origin := [changesFile, jira, gitHub]

def key : Origin → String
  | changesFile => "changes-file"
  | jira => "jira"
  | gitHub => "github"

def title : Origin → String
  | changesFile => "changes file"
  | jira => "Jira"
  | gitHub => "GitHub"

def ofKey? (key : String) : Option Origin :=
  all.find? (·.key == key)

def ofName (name : String) : Except Cause Origin :=
  let lower := lowercase (trim name)
  match ofKey? lower with
  | some origin => .ok origin
  | none => .error (.unknownSystem lower)

def isTracker (origin : Origin) : Bool :=
  origin != changesFile

end Origin

end ReleaseNotes
