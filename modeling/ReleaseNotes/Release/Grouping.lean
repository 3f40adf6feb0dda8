import ReleaseNotes.Issue
import ReleaseNotes.Release.Basic
import ReleaseNotes.Tracker.TypeMapping
import ReleaseNotes.Version

/-!
Grouping issues into releases. Each fix version of an issue puts an action into the release of that
version, and the releases are sorted from the newest to the oldest.
-/

namespace ReleaseNotes

def Action.ofIssue (mapping : TypeMapping) (issue : Issue) : Action where
  kind := mapping.categoryName issue.kind
  text := issue.summary
  issue := some issue.key
  fixedIssues := []
  developer := issue.assignee
  contributors := issue.reporter.toList.map fun name => ⟨name, none⟩
  date := none
  system := none

namespace Release

def ofActions (version : String) (actions : List Action) : Release :=
  ⟨version, none, none, actions, []⟩

/-- Adds an action to the release of a version, which is new at the end if there is none. -/
def addAction (version : String) (action : Action) : List Release → List Release
  | [] => [ofActions version [action]]
  | release :: rest =>
    if release.version = version then
      { release with actions := release.actions ++ [action] } :: rest
    else release :: addAction version action rest

def versionedActions (mapping : TypeMapping) (issues : List Issue) : List (String × Action) :=
  issues.flatMap fun issue =>
    issue.fixVersions.map fun version => (version, Action.ofIssue mapping issue)

def groupActions (actions : List (String × Action)) : List Release :=
  actions.foldl (fun releases entry => addAction entry.1 entry.2 releases) []

def isNotOlder (left right : Release) : Bool :=
  Version.compare right.version left.version != .gt

/-- Groups issues by their fix versions, the newest release first. Releases of equally old
versions keep their order. -/
def ofIssues (mapping : TypeMapping) (issues : List Issue) : List Release :=
  (groupActions (versionedActions mapping issues)).mergeSort isNotOlder

end Release

end ReleaseNotes
