import ReleaseNotes.Http.Server
import ReleaseNotes.Json.Text
import ReleaseNotes.Project.Metadata
import ReleaseNotes.Tracker.GitHubData
import ReleaseNotes.Tracker.Source

/-!
Downloading issues from GitHub, page by page. A page that is not full is the last one.
-/

namespace ReleaseNotes.GitHub

open Http

structure Download where
  server : Server
  repository : GitHubRepository
  credentials : Credentials
  settings : GitHubSettings

/-- A key: the configured one or that of the environment. -/
def credentials (settings : GitHubSettings) (environmentKey : Option String) : Credentials :=
  match settings.apiKey.or environmentKey with
  | some key => .bearer key
  | none => .anonymous

def pageSize : Nat := 100

namespace Download

def page (download : Download) (state : String) (number : Nat) : Request where
  method := .get
  url :=
    download.repository.apiUrl ++ "/repos/" ++ download.repository.owner ++ "/" ++
      download.repository.name ++ "/issues?state=" ++ state ++ "&per_page=" ++
      toString pageSize ++ "&page=" ++ toString number
  authorization := download.credentials.header
  body := none

def items (answer : Answer) : Journaled (List GitHubItem) := do
  if answer.isSuccess then
    match (Json.parse? answer.body).bind (Json.list? GitHubItem.ofJson?) with
    | some items => return items
    | none => Journaled.failWith ⟨[.parsingFromGitHub], .transport⟩
  else
    let message := (Json.parse? answer.body).bind GitHubItem.errorMessage?
    Journaled.logAll (message.toList.map fun message => ⟨.error, "GitHub: " ++ message⟩)
    Journaled.fail (.refusedByGitHub answer.statusText)

/-- The issues on the pages from a number on. The first argument bounds how many pages there are. -/
def pagesFrom (download : Download) (state : String) : Nat → Nat → Journaled (List GitHubItem)
  | 0, _ => .failWith ⟨[.downloadingFromGitHub], .transport⟩
  | bound + 1, number => do
    let answer ← download.server.send .downloadingFromGitHub (download.page state number)
    let batch ← items answer
    if batch.length < pageSize then return batch
    else return batch ++ (← download.pagesFrom state bound (number + 1))

/-- All issues in a state. Since the pages have addresses of their own and the server finds nothing
at most addresses, one more page than it has replies is enough. -/
def inState (download : Download) (state : String) : Journaled (List GitHubItem) :=
  download.pagesFrom state (download.server.replies.length + 1) 1

def openItems (download : Download) : Journaled (List GitHubItem) :=
  if download.settings.includeOpenIssues then download.inState "open" else pure []

def fetch (download : Download) : Journaled (List Issue) := do
  let repository := download.repository
  Journaled.log .info
    ("Downloading issues from GitHub: " ++ repository.owner ++ "/" ++ repository.name)
  let closed ← download.inState "closed"
  let opened ← download.openItems
  let wanted :=
    (closed ++ opened).filter (GitHubItem.isWanted download.settings.onlyMilestoneIssues)
  let issues := wanted.map (GitHubItem.toIssue repository.issuesUrl)
  Journaled.log .info s!"Downloaded {issues.length} issues from GitHub."
  return issues

end Download

def source (server : Server) (url : String) (settings : GitHubSettings)
    (environmentKey : Option String) : Except Cause Source := do
  let repository ← GitHubRepository.parse url
  let download : Download :=
    ⟨server, repository, credentials settings environmentKey, settings⟩
  return ⟨"GitHub", download.fetch⟩

end ReleaseNotes.GitHub
