import ReleaseNotes.Project.Origin

/-!
What a project says about itself, and the settings for its issue trackers.
-/

namespace ReleaseNotes

open Text

structure IssueManagement where
  /-- The name of the tracker, which selects the form of issue links. -/
  system : Option String
  url : Option String
deriving DecidableEq, Repr

structure Module where
  name : String
  /-- The directory, as seen from the directory of the project. -/
  path : String
deriving DecidableEq, Repr

/-- The description of a project. Maps have every name once. -/
structure Metadata where
  name : String
  version : String
  groupId : Option String
  artifactId : Option String
  packaging : Option String
  url : Option String
  downloadUrl : Option String
  finalName : Option String
  developmentTeam : Option String
  introduction : Option String
  issueManagement : Option IssueManagement
  /-- Where releases come from, in the order in which they are merged. -/
  origins : List Origin
  /-- Issue types for the categories of changes. -/
  issueTypes : Option (List (String × String))
  /-- What stands before the versions of this project in the tracker. -/
  versionPrefix : Option String
  onlyCurrentVersion : Bool
  /-- The address of a page about the developers. -/
  team : Option String
  /-- Forms of issue links by the name of a tracker. -/
  linkTemplates : List (String × String)
  modules : List Module
  /-- The pattern of release dates. -/
  datePattern : String
deriving DecidableEq, Repr

namespace Metadata

def ofName (name version : String) : Metadata where
  name := name
  version := version
  groupId := none
  artifactId := none
  packaging := none
  url := none
  downloadUrl := none
  finalName := none
  developmentTeam := none
  introduction := none
  issueManagement := none
  origins := [.changesFile]
  issueTypes := none
  versionPrefix := none
  onlyCurrentVersion := false
  team := none
  linkTemplates := []
  modules := []
  datePattern := "%Y-%m-%d"

def prefixedVersion (project : Metadata) : String :=
  project.versionPrefix.getD "" ++ project.version

def trackerUrl? (project : Metadata) : Option String :=
  nonBlank? (project.issueManagement.bind IssueManagement.url)

def trackerName? (project : Metadata) : Option String :=
  project.issueManagement.bind IssueManagement.system

end Metadata

structure JiraSettings where
  user : Option String
  password : Option String
  apiKey : Option String
  /-- A query that takes the place of all other restrictions. -/
  filter : Option String
  fixVersions : Option String
  statuses : Option String
  resolutions : Option String
  priorities : Option String
  components : Option String
  types : Option String
  sortColumns : Option String
  /-- How many issues to download at most. -/
  maxEntries : Nat
  connectionTimeout : Nat
  receiveTimeout : Nat
  /-- Shows the query in the language JQL, and not as URL parameters. -/
  useJql : Bool
  /-- The columns of the issues report. -/
  columns : Option String
deriving DecidableEq, Repr

def JiraSettings.default : JiraSettings where
  user := none
  password := none
  apiKey := none
  filter := none
  fixVersions := none
  statuses := none
  resolutions := none
  priorities := none
  components := none
  types := none
  sortColumns := none
  maxEntries := 100
  connectionTimeout := 36000
  receiveTimeout := 60000
  useJql := true
  columns := none

structure GitHubSettings where
  apiKey : Option String
  includeOpenIssues : Bool
  onlyMilestoneIssues : Bool
  /-- The columns of the issues report. -/
  columns : Option String
deriving DecidableEq, Repr

def GitHubSettings.default : GitHubSettings where
  apiKey := none
  includeOpenIssues := true
  onlyMilestoneIssues := true
  columns := none

structure TrackerSettings where
  jira : JiraSettings
  gitHub : GitHubSettings
deriving DecidableEq, Repr

def TrackerSettings.default : TrackerSettings := ⟨.default, .default⟩

end ReleaseNotes
