import ReleaseNotes.Http.Server
import ReleaseNotes.Json.Text
import ReleaseNotes.Project.Metadata
import ReleaseNotes.Query.Jql
import ReleaseNotes.Tracker.JiraData
import ReleaseNotes.Tracker.Source

/-!
Downloading issues from Jira. The configured names are looked up in lists that the server has, one
list after the other, and the query with their numbers is posted at the end.
-/

namespace ReleaseNotes.Jira

open Http JiraData Query Text

structure Download where
  server : Server
  address : JiraAddress
  credentials : Credentials
  settings : JiraSettings
  fixFor : Option String

/-- A user with a password, or else a key: the configured one or that of the environment. -/
def credentials (settings : JiraSettings) (environmentKey : Option String) : Credentials :=
  match settings.user, settings.password with
  | some user, some password => .basic user password
  | _, _ =>
    match settings.apiKey.or environmentKey with
    | some key => .bearer key
    | none => .anonymous

def lookedUp : List ListField :=
  [.component, .fixVersion, .status, .resolution, .issueType, .priority]

def label : ListField → String
  | .component => "component"
  | .fixVersion => "version"
  | .status => "status"
  | .resolution => "resolution"
  | .issueType => "issue type"
  | .priority => "priority"

def configured (settings : JiraSettings) : ListField → Option String
  | .component => settings.components
  | .fixVersion => settings.fixVersions
  | .status => settings.statuses
  | .resolution => settings.resolutions
  | .issueType => settings.types
  | .priority => settings.priorities

def listPath (project : String) : ListField → String
  | .component => "project/" ++ project ++ "/components"
  | .fixVersion => "project/" ++ project ++ "/versions"
  | .status => "status"
  | .resolution => "resolution"
  | .issueType => "issuetype"
  | .priority => "priority"

/-- The first thing that has a text for its name or its number gives its number. -/
def resolveName (field : ListField) (known : List Named) (name : String) :
    Except Cause String :=
  match (known.find? fun item => item.name == name || item.id == some name).bind Named.id with
  | some id => .ok id
  | none => .error (.unknownInJira (label field) name)

def resolveNames (field : ListField) (names : String) (known : List Named) :
    Except Cause (List String) :=
  (commaList names).mapM (resolveName field known)

namespace Download

def apiUrl (download : Download) (path : String) : String :=
  download.address.base ++ "/rest/api/2/" ++ path

def get (download : Download) (path : String) : Request :=
  ⟨.get, download.apiUrl path, download.credentials.header, none⟩

/-- The messages in the body of an answer. A body that is no error has none. -/
def messages (body : String) : List String :=
  ((Json.parse? body).bind errorMessages?).getD []

/-- A successful answer. Any other one is a failure, whose messages are logged. -/
def accept (answer : Answer) (action : String) : Journaled Answer := do
  if answer.isSuccess then return answer
  else
    Journaled.logAll ((messages answer.body).map fun message => ⟨.error, "Jira: " ++ message⟩)
    Journaled.fail (.refusedByJira action answer.statusText)

def checkServer (download : Download) : Journaled Unit := do
  let answer ← download.server.send (.connectingToJira download.address.base)
    (download.get "serverInfo")
  let _ ← accept answer "access the server information"

def namedList (download : Download) (path : String) : Journaled (List Named) := do
  let answer ← download.server.send (.downloadingFromJira path) (download.get path)
  let answer ← accept answer ("list " ++ path)
  match (Json.parse? answer.body).bind (Json.list? named?) with
  | some items => return items
  | none => Journaled.failWith ⟨[.parsingFromJira path], .transport⟩

def fieldSettings (download : Download) (field : ListField) : Journaled (List Setting) :=
  match configured download.settings field with
  | none => return []
  | some names => do
    let known ← download.namedList (listPath download.address.project field)
    let ids ← Journaled.ofExcept (resolveNames field names known)
    return [.valueList field ids]

def listSettings (download : Download) : List ListField → Journaled (List Setting)
  | [] => return []
  | field :: fields => do
    let first ← download.fieldSettings field
    let rest ← download.listSettings fields
    return first ++ rest

def jql (download : Download) : Journaled String := do
  let lists ← download.listSettings lookedUp
  let settings :=
    [.urlEncode false, .project download.address.project] ++
      download.fixFor.toList.map .fixVersion ++ lists ++
      download.settings.sortColumns.toList.map .sort ++
      download.settings.filter.toList.map .filter
  Journaled.logAll (settings.flatMap Jql.Query.complaints)
  return (Jql.Query.empty.setAll settings).text

def search (download : Download) (jql : String) : Request where
  method := .post
  url := download.apiUrl "search"
  authorization := download.credentials.header
  body := some <| .object
    [ (some "jql", .ofText jql),
      (some "maxResults", .number (.ofNat download.settings.maxEntries)),
      (some "fields", .array [.ofText "*all"]) ]

/-- The issues in the answer to a search. The answer must be a value and have the right form. -/
def readFound (base body : String) : Journaled (List Issue) :=
  match (Json.parse? body).bind fun json => json.full? 0 with
  | none => .failWith ⟨[.readingSearchResults], .transport⟩
  | some json =>
    match found? base json with
    | some issues => .succeed issues
    | none => .failWith ⟨[.unexpectedSearchResults], .malformedJson⟩

def fetch (download : Download) : Journaled (List Issue) := do
  download.checkServer
  let jql ← download.jql
  Journaled.log .info ("Downloading issues from Jira: " ++ jql)
  let answer ← download.server.send .searchingJira (download.search jql)
  let answer ← accept answer "search for issues"
  let issues ← readFound download.address.base answer.body
  Journaled.log .info s!"Downloaded {issues.length} issues from Jira."
  return issues

end Download

def source (server : Server) (url : String) (settings : JiraSettings)
    (environmentKey fixFor : Option String) : Except Cause Source := do
  let address ← JiraAddress.parse url
  let download : Download :=
    ⟨server, address, credentials settings environmentKey, settings, fixFor⟩
  return ⟨"Jira", download.fetch⟩

end ReleaseNotes.Jira
