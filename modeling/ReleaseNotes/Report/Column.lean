import ReleaseNotes.Issue
import ReleaseNotes.Journal
import ReleaseNotes.Project.Origin
import ReleaseNotes.Text.Separated

/-!
The columns of the issues report, and the choice of columns by their names.
-/

namespace ReleaseNotes

open Text

inductive Column where
  | assignee
  | component
  | created
  | fixVersion
  | id
  | key
  | priority
  | reporter
  | resolution
  | status
  | summary
  | type
  | updated
  | version
deriving DecidableEq, Repr

namespace Column

def all : List Column :=
  [assignee, component, created, fixVersion, id, key, priority, reporter, resolution, status,
    summary, type, updated, version]

def label : Column → String
  | assignee => "Assignee"
  | component => "Component"
  | created => "Created"
  | fixVersion => "Fix Version"
  | id => "Id"
  | key => "Key"
  | priority => "Priority"
  | reporter => "Reporter"
  | resolution => "Resolution"
  | status => "Status"
  | summary => "Summary"
  | type => "Type"
  | updated => "Updated"
  | version => "Version"

/-- The column of a name. The case of ASCII letters and blanks around the name do not matter. -/
def ofName? (name : String) : Option Column :=
  all.find? fun column => asciiLowercase column.label == asciiLowercase (trim name)

def supported : Origin → List Column
  | .gitHub => [assignee, created, fixVersion, id, reporter, status, summary, type, updated]
  | .jira | .changesFile => all

def usual : Origin → String
  | .gitHub => "Id,Type,Summary,Assignee,Reporter,Status,Created,Updated,Fix Version"
  | .jira | .changesFile => "Key,Summary,Status,Resolution,Assignee"

def supported? (tracker : Origin) (name : String) : Option Column :=
  (ofName? name).filter (supported tracker).contains

def complaints (tracker : Origin) (name : String) : List Entry :=
  match ofName? name with
  | none => [⟨.warning, s!"Unknown column in the issues report: `{name}`"⟩]
  | some column =>
    if (supported tracker).contains column then []
    else [⟨.warning, s!"The tracker doesn't support the `{name}` column."⟩]

/-- The columns of a comma list of names. There must be one that can be filled. -/
def select (tracker : Origin) (names : String) : Journaled (List Column) := do
  let items := commaList names
  Journaled.logAll (items.flatMap (complaints tracker))
  match items.filterMap (supported? tracker) with
  | [] => Journaled.fail (.noUsableColumns names)
  | columns => return columns

end Column

end ReleaseNotes
