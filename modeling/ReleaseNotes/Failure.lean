/-!
Why a call fails. A failure has a cause and the contexts that callers have added to it, from the
outermost to the innermost. The wording of causes and contexts is in one function each.
-/

namespace ReleaseNotes

/-- What went wrong. The first four causes lie with a text or a party that the program reads from;
they have no wording of their own. -/
inductive Cause where
  | malformedYaml
  | malformedJson
  | transport
  | fileSystem
  | releaseNotFound (version known : String)
  | noVersionStartsWith (start : String)
  | noIssuesForVersion (version : String)
  | noReleases
  | invalidReleaseDate (version date pattern : String)
  | unknownIssueGroup (tracker group : String)
  | issueTypeInTwoGroups (tracker issueType former later : String)
  | noListOperation (operation : String)
  | unknownSystem (name : String)
  | invalidJiraUrl (url : String)
  | unknownInJira (what name : String)
  | refusedByJira (action status : String)
  | invalidGitHubUrl (url : String)
  | refusedByGitHub (status : String)
  | noTrackerUrl (system : String)
  | changesFileIsNoTracker
  | notATracker (system : String)
  | noTrackerConfigured
  | noUsableColumns (names : String)
  | noIssueManagementUrl
  | problemsFound (count : Nat) (path : String)
  | filesExist (paths : String)
  | other (text : String)
deriving DecidableEq, Repr

def Cause.message : Cause → String
  | .malformedYaml | .malformedJson | .transport | .fileSystem => ""
  | .releaseNotFound version known =>
    s!"Couldn't find the release '{version}' among the supplied releases: {known}"
  | .noVersionStartsWith start =>
    s!"None of the issues has a fix version that starts with '{start}'."
  | .noIssuesForVersion version =>
    s!"Couldn't find any issues for the version '{version}' among the supplied issues."
  | .noReleases => "No releases found in any of the configured issue management systems."
  | .invalidReleaseDate version date pattern =>
    s!"The release {version} doesn't have a valid date: '{date}'. " ++
      s!"The expected format is `{pattern}`."
  | .unknownIssueGroup tracker group =>
    s!"Invalid issue action type found in the configuration of {tracker}: `{group}`. " ++
      "Use `add`, `fix`, or `update`."
  | .issueTypeInTwoGroups tracker issueType former later =>
    s!"The issue type `{issueType}` is configured as both `{former}` and `{later}` in {tracker}."
  | .noListOperation operation =>
    s!"The `{operation}` operation with a list of values isn't supported for old parameter queries."
  | .unknownSystem name => s!"Unknown system `{name}`. Use `changes-file`, `jira`, or `github`."
  | .invalidJiraUrl url =>
    s!"The Jira URL `{url}` is invalid. Use the form `https://host/browse/PROJECT`."
  | .unknownInJira what name => s!"Could not find the {what} `{name}` in Jira."
  | .refusedByJira action status => s!"Failed to {action} in Jira. Server response: {status}"
  | .invalidGitHubUrl url =>
    s!"The GitHub URL `{url}` is invalid. Use the form `https://github.com/OWNER/REPO/issues`."
  | .refusedByGitHub status =>
    s!"Failed to download issues from GitHub. Server response: {status}"
  | .noTrackerUrl system =>
    s!"The {system} system needs the issue management URL in the project configuration."
  | .changesFileIsNoTracker => "The changes file isn't an issue tracker."
  | .notATracker system => s!"The issues report needs an issue tracker, not the {system}."
  | .noTrackerConfigured => "The project configures no issue tracker for the issues report."
  | .noUsableColumns names => s!"None of the configured columns `{names}` are valid."
  | .noIssueManagementUrl => "The project configuration has no issue management URL."
  | .problemsFound count path => s!"Found {count} problems in {path}."
  | .filesExist paths => s!"The directory already contains configuration files:\n{paths}"
  | .other text => text

inductive Context where
  | parsingChanges
  | readingChanges (path : String)
  | invalidChanges (path : String)
  | accessingProject (path : String)
  | readingProject (path : String)
  | parsingProject
  | readingTrackers
  | parsingTrackers
  | downloading (source : String)
  | downloadingFromGitHub
  | parsingFromGitHub
  | connectingToJira (url : String)
  | downloadingFromJira (path : String)
  | parsingFromJira (path : String)
  | searchingJira
  | readingSearchResults
  | unexpectedSearchResults
  | creatingOutputDirectory
  | writing (path : String)
  | initializing
  | creatingProjectDirectory
  | copyingExamples
deriving DecidableEq, Repr

def Context.message : Context → String
  | .parsingChanges => "Cannot parse the changes file."
  | .readingChanges path => s!"Cannot read the changes file: {path}"
  | .invalidChanges path => s!"Invalid changes file: {path}"
  | .accessingProject path => s!"Cannot access the project directory: {path}"
  | .readingProject path => s!"Cannot read the project file: {path}"
  | .parsingProject => "Cannot parse the project file."
  | .readingTrackers => "Cannot read the trackers configuration file."
  | .parsingTrackers => "Cannot parse the trackers configuration file."
  | .downloading source => s!"Failed to download issues from {source}."
  | .downloadingFromGitHub => "Failed to download issues from GitHub."
  | .parsingFromGitHub => "Failed to parse the issues from GitHub."
  | .connectingToJira url => s!"Failed to connect to Jira at {url}."
  | .downloadingFromJira path => s!"Failed to download {path} from Jira."
  | .parsingFromJira path => s!"Failed to parse {path} from Jira."
  | .searchingJira => "Failed to search for issues in Jira."
  | .readingSearchResults => "Failed to read the search results from Jira."
  | .unexpectedSearchResults => "Unexpected search results from Jira."
  | .creatingOutputDirectory => "Failed to create the output directory."
  | .writing path => s!"Failed to write {path}."
  | .initializing => "Failed to initialize the project directory."
  | .creatingProjectDirectory => "Failed to create the project directory."
  | .copyingExamples => "Failed to copy files to the project directory."

structure Failure where
  contexts : List Context
  cause : Cause
deriving DecidableEq, Repr

namespace Failure

def ofCause (cause : Cause) : Failure := ⟨[], cause⟩

def within (failure : Failure) (context : Context) : Failure :=
  { failure with contexts := context :: failure.contexts }

/-- The cause lies with the program's own rules, and not with what it reads from. -/
def isOwn (failure : Failure) : Bool :=
  match failure.cause with
  | .malformedYaml | .malformedJson | .transport | .fileSystem => false
  | _ => true

def lines (failure : Failure) : List String :=
  failure.contexts.map Context.message ++ if failure.isOwn then [failure.cause.message] else []

end Failure

end ReleaseNotes
