import ReleaseNotes.Project.Metadata
import ReleaseNotes.Release.Grouping
import ReleaseNotes.Release.Selection
import ReleaseNotes.Journal

/-!
Issue trackers as sources of issues and releases. What a tracker hands out is narrowed to the
versions that the project asks for.
-/

namespace ReleaseNotes

structure Source where
  name : String
  fetch : Journaled (List Issue)

namespace Source

def versionStart? (project : Metadata) : Option String :=
  project.versionPrefix.filter (· != "")

def narrowed (project : Metadata) (issues : List Issue) : Except Cause (List Issue) := do
  let issues ← match versionStart? project with
    | some start => Issue.withVersionPrefix issues start
    | none => .ok issues
  if project.onlyCurrentVersion then Issue.forVersion issues project.prefixedVersion
  else .ok issues

def issues (source : Source) (project : Metadata) : Journaled (List Issue) := do
  let issues ← source.fetch.within (.downloading source.name)
  Journaled.ofExcept (narrowed project issues)

def typeMapping (name : String) (project : Metadata) : Except Cause TypeMapping :=
  let usual := TypeMapping.ofTracker name
  match project.issueTypes with
  | none => .ok usual
  | some groups =>
    let (mapping, result) := usual.configure groups
    result.map fun _ => mapping

def releases (source : Source) (project : Metadata) : Journaled (List Release) := do
  let issues ← source.issues project
  let mapping ← Journaled.ofExcept (typeMapping source.name project)
  return Release.ofIssues mapping issues

end Source

end ReleaseNotes
