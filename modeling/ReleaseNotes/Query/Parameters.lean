import ReleaseNotes.Journal
import ReleaseNotes.Query.Setting
import ReleaseNotes.Text.Digits

/-!
Queries made of URL parameters, as an old issue navigator takes them. Parameters are added in the
order of the settings; names of statuses, resolutions, priorities and types are written as numbers.
-/

namespace ReleaseNotes.Parameters

open Text Query

structure Parameter where
  name : String
  value : String
deriving DecidableEq, Repr

structure Query where
  filter : String
  parameters : List Parameter
deriving DecidableEq, Repr

def priorityNumbers : List (String × String) :=
  [("Blocker", "1"), ("Critical", "2"), ("Major", "3"), ("Minor", "4"), ("Trivial", "5")]

def resolutionNumbers : List (String × String) :=
  [("Unresolved", "-1"), ("Fixed", "1"), ("Won't Fix", "2"), ("Duplicate", "3"),
    ("Incomplete", "4"), ("Cannot Reproduce", "5")]

def statusNumbers : List (String × String) :=
  [("Open", "1"), ("In Progress", "3"), ("Reopened", "4"), ("Resolved", "5"), ("Closed", "6")]

def typeNumbers : List (String × String) :=
  [("Bug", "1"), ("New Feature", "2"), ("Task", "3"), ("Improvement", "4"), ("Wish", "5"),
    ("Test", "6"), ("Sub-task", "7")]

def sortFields : List (String × String) :=
  [("key", "issuekey"), ("summary", "summary"), ("status", "status"), ("resolution", "resolution"),
    ("assignee", "assignee"), ("reporter", "reporter"), ("type", "issuetype"),
    ("priority", "priority"), ("version", "versions"), ("fix version", "fixVersions"),
    ("component", "components"), ("created", "created"), ("updated", "updated")]

def statusNumber? (status : String) : Option String :=
  match statusNumbers.lookup status with
  | some number => some number
  | none => if isInt32 status then some status else none

/-- The parameters that listed values give. Unknown names give none. -/
def valueParameters (field : ListField) (values : List String) : List Parameter :=
  let mapped (name : String) (number? : String → Option String) : List Parameter :=
    (values.filterMap number?).map (Parameter.mk name)
  match field with
  | .fixVersion => values.map (Parameter.mk "fixfor")
  | .status => mapped "statusIds" statusNumber?
  | .resolution => mapped "resolutionIds" fun value => resolutionNumbers.lookup value
  | .priority => mapped "priorityIds" fun value => priorityNumbers.lookup value
  | .issueType => mapped "type" fun value => typeNumbers.lookup value
  | .component => values.map (Parameter.mk "component")

def columnParameters (column : SortColumn) : List Parameter :=
  match sortFields.lookup column.name with
  | some field =>
    [⟨"sorter/field", field⟩, ⟨"sorter/order", if column.descending then "DESC" else "ASC"⟩]
  | none => []

/-- The parameters that a setting adds. Sort columns come in reverse order. -/
def settingParameters : Setting → List Parameter
  | .values field text => valueParameters field (commaList text)
  | .valueList .component items => valueParameters .component (trimmedItems items)
  | .sort columns => (sortColumns columns).reverse.flatMap columnParameters
  | _ => []

/-- The operation that a setting stands for, if these queries have no such operation. -/
def unsupported? : Setting → Option String
  | .valueList .fixVersion _ => some "fixVersionIds"
  | .valueList .status _ => some "statusIds"
  | .valueList .resolution _ => some "resolutionIds"
  | .valueList .priority _ => some "priorityIds"
  | .valueList .issueType _ => some "typeIds"
  | _ => none

def isUnknownColumn (column : SortColumn) : Bool :=
  (sortFields.lookup column.name).isNone

def complaints : Setting → List Entry
  | .values .status text =>
    ((commaList text).filter fun status => (statusNumber? status).isNone).map fun status =>
      ⟨.error, s!"Invalid status ID: `{status}`"⟩
  | .sort text =>
    let columns := (sortColumns text).reverse
    ((columns.filter isUnknownColumn).map fun column =>
        ⟨.error, s!"The configured sort column `{column.name}` isn't correct."⟩) ++
      if columns.all isUnknownColumn then
        [⟨.error, s!"None of the configured sort columns `{text}` are correct."⟩]
      else []
  | _ => []

namespace Query

def empty : Query := ⟨"", []⟩

def set (query : Query) (setting : Setting) : Except Cause Query :=
  match unsupported? setting with
  | some operation => .error (.noListOperation operation)
  | none =>
    match setting with
    | .filter text => .ok { query with filter := text }
    | setting => .ok { query with parameters := query.parameters ++ settingParameters setting }

/-- The query after settings of which those that are not supported change nothing. -/
def setAll (query : Query) (settings : List Setting) : Query :=
  settings.foldl (fun query setting => (query.set setting).toOption.getD query) query

def parameterText (parameter : Parameter) : String :=
  "&" ++ parameter.name ++ "=" ++ parameter.value

/-- The text of the query: the filter, or else every parameter behind an ampersand. -/
def text (query : Query) : String :=
  if query.filter = "" then String.join (query.parameters.map parameterText) else query.filter

end Query

end ReleaseNotes.Parameters
