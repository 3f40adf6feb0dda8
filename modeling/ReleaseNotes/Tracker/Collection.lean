import ReleaseNotes.Project.Load
import ReleaseNotes.Release.Merging
import ReleaseNotes.Tracker.GitHub
import ReleaseNotes.Tracker.Jira

/-!
Collecting issues and releases for a project from its changes files and its issue trackers.
-/

namespace ReleaseNotes

structure Environment where
  server : Http.Server
  jiraKey : Option String
  gitHubKey : Option String

namespace Project

/-- The version to look for in a tracker, if only the current one is wanted. -/
def currentVersion? (metadata : Metadata) : Option String :=
  if metadata.onlyCurrentVersion then some (Version.stripSnapshot metadata.prefixedVersion)
  else none

def source (project : Project) (environment : Environment) (origin : Origin) :
    Except Cause Source :=
  match project.metadata.trackerUrl? with
  | none => .error (.noTrackerUrl origin.title)
  | some url =>
    match origin with
    | .jira =>
      Jira.source environment.server url project.trackers.jira environment.jiraKey
        (currentVersion? project.metadata)
    | .gitHub =>
      GitHub.source environment.server url project.trackers.gitHub environment.gitHubKey
    | .changesFile => .error .changesFileIsNoTracker

/-- The tracker for the report on issues: the requested one, or else the first of the project. -/
def reportTracker (project : Project) : Option Origin → Except Cause Origin
  | some origin =>
    if origin.isTracker then .ok origin else .error (.notATracker origin.title)
  | none =>
    match project.metadata.origins.find? Origin.isTracker with
    | some origin => .ok origin
    | none => .error .noTrackerConfigured

def issues (project : Project) (environment : Environment) (origin : Origin) :
    Journaled (List Issue) := do
  let source ← Journaled.ofExcept (project.source environment origin)
  let issues ← source.issues project.metadata
  Journaled.log .info s!"Collected {issues.length} issues from {source.name}."
  return issues

def releasesFrom (project : Project) (tree : FileTree) (environment : Environment)
    (origin : Origin) : Journaled (List Release) :=
  if origin.isTracker then do
    let source ← Journaled.ofExcept (project.source environment origin)
    source.releases project.metadata
  else do return (← ChangesDocument.load tree project.changesFile).releases

def addOrigins (project : Project) (tree : FileTree) (environment : Environment) :
    List Release → List Origin → Journaled (List Release)
  | releases, [] => return releases
  | releases, origin :: origins => do
    let own ← project.releasesFrom tree environment origin
    project.addOrigins tree environment (Release.mergeLists releases own) origins

def addModules (project : Project) (tree : FileTree) :
    List Release → List Module → Journaled (List Release)
  | releases, [] => return releases
  | releases, part :: parts => do
    let changes ← ChangesDocument.load tree (project.moduleChangesFile part)
    project.addModules tree (Release.mergeModule releases part.name changes.releases) parts

def releases (project : Project) (tree : FileTree) (environment : Environment) :
    Journaled (List Release) := do
  let merged ← project.addOrigins tree environment [] project.metadata.origins
  let releases ← project.addModules tree merged project.metadata.modules
  let actions := (releases.flatMap Release.allActions).length
  Journaled.log .info s!"Collected {releases.length} releases with {actions} actions."
  return releases

end Project

end ReleaseNotes
