import ReleaseNotes.Failure
import ReleaseNotes.Issue
import ReleaseNotes.Release.Basic
import ReleaseNotes.Version

/-!
Selecting releases and issues by version.
-/

namespace ReleaseNotes

namespace Release

def latest (releases : List Release) (projectVersion : String) : Except Cause Release :=
  let version := Version.stripSnapshot projectVersion
  match find? releases version with
  | some release => .ok release
  | none => .error (.releaseNotFound version (summaries releases))

end Release

namespace Issue

def hasVersionFrom (start : String) (issue : Issue) : Bool :=
  issue.fixVersions.any fun version => start.toList.isPrefixOf version.toList

/-- The issues with a fix version that begins with a text. There must be one. -/
def withVersionPrefix (issues : List Issue) (start : String) : Except Cause (List Issue) :=
  match issues.filter (hasVersionFrom start) with
  | [] => .error (.noVersionStartsWith start)
  | kept => .ok kept

/-- The issues that are fixed in a version. There must be one. -/
def forVersion (issues : List Issue) (projectVersion : String) : Except Cause (List Issue) :=
  let version := Version.stripSnapshot projectVersion
  match issues.filter fun issue => issue.fixVersions.contains version with
  | [] => .error (.noIssuesForVersion version)
  | kept => .ok kept

end Issue

end ReleaseNotes
