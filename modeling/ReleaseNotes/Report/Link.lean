import ReleaseNotes.Journal
import ReleaseNotes.Project.Metadata
import ReleaseNotes.Text.Separated

/-!
Links to issues. Each tracker has a template with places for the address of the tracker and for the
issue; templates of the project take the place of the usual ones. Letter case does not matter in
the names of trackers.
-/

namespace ReleaseNotes

open Text

structure Linker where
  /-- Templates by the name of a tracker in lower case. The first one of a name counts. -/
  templates : List (String × String)
  /-- The address of the tracker without its last part. -/
  url : Option String
  /-- The tracker of the project, in lower case. -/
  system : Option String
deriving DecidableEq, Repr

namespace Linker

def urlToken : String := "%URL%"

def issueToken : String := "%ISSUE%"

def defaultSystem : String := "default"

def usualTemplates : List (String × String) :=
  [ (defaultSystem, "%URL%/ViewIssue.jspa?key=%ISSUE%"),
    ("Bitbucket", "%URL%/issue/%ISSUE%"),
    ("Bugzilla", "%URL%/show_bug.cgi?id=%ISSUE%"),
    ("GitHub", "%URL%/%ISSUE%"),
    ("GoogleCode", "%URL%/detail?id=%ISSUE%"),
    ("JIRA", "%URL%/%ISSUE%"),
    ("Mantis", "%URL%/view.php?id=%ISSUE%"),
    ("MKS", "%URL%/viewissue?selection=%ISSUE%"),
    ("Redmine", "%URL%/issues/show/%ISSUE%"),
    ("Scarab", "%URL%/issues/id/%ISSUE%"),
    ("SourceForge", "http://sourceforge.net/support/tracker.php?aid=%ISSUE%"),
    ("SourceForge2", "%URL%/%ISSUE%"),
    ("Trac", "%URL%/ticket/%ISSUE%"),
    ("Trackplus", "%URL%/printItem.action?key=%ISSUE%"),
    ("Tuleap", "%URL%/?aid=%ISSUE%"),
    ("YouTrack", "%URL%/issue/%ISSUE%") ]

/-- An address without its last slash and what follows it, unless the rest is blank. -/
def shortened? (url : String) : Option String :=
  nonBlank? ((splitLast? (· == '/') url.toList).map fun parts => String.ofList parts.1)

/-- Names in lower case. Of the names that become equal the last one counts. -/
def byLowercase (configured : List (String × String)) : List (String × String) :=
  configured.reverse.map fun entry => (lowercase entry.1, entry.2)

def new (configured : List (String × String)) (url system : Option String) : Linker where
  templates := byLowercase configured ++ byLowercase usualTemplates
  url := url.bind shortened?
  system := (nonBlank? system).map lowercase

def complaints (linker : Linker) : List Entry :=
  if linker.url.isNone then
    [⟨.warning, "No usable issue management URL. Some issue links might be missing."⟩]
  else []

def effectiveSystem (linker : Linker) (actionSystem : Option String) : String :=
  (((nonBlank? actionSystem).map lowercase).or linker.system).getD defaultSystem

/-- A template can be filled unless it needs an address that is not known. -/
def isUsable (linker : Linker) (template : String) : Bool :=
  !isBlankText template &&
    (!occursIn urlToken.toList template.toList || linker.url.isSome)

def template? (linker : Linker) (actionSystem : Option String) : Option String :=
  (linker.templates.lookup (linker.effectiveSystem actionSystem)).filter linker.isUsable

/-- A template with the issue and then the address in their first places. -/
def filled (template issue : String) (url : Option String) : String :=
  let withIssue := replaceFirst issueToken.toList issue.toList template.toList
  String.ofList <| match url with
    | some url => replaceFirst urlToken.toList url.toList withIssue
    | none => withIssue

def link (linker : Linker) (issue : String) (actionSystem : Option String) : Option String :=
  (linker.template? actionSystem).map fun template => filled template issue linker.url

def ofProject (project : Metadata) : Linker :=
  new project.linkTemplates project.trackerUrl? project.trackerName?

end Linker

end ReleaseNotes
