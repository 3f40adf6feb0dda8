import ReleaseNotes.Journal
import ReleaseNotes.Project.Metadata
import ReleaseNotes.Release.Selection

/-!
The announcement of a release, as plain text. It lists the actions of the release by category, and
then those of each component.
-/

namespace ReleaseNotes.Announcement

open Text

def entry (action : Action) : String :=
  let issues := action.allIssues
  let names := action.contributors.map Contributor.name
  action.text ++
    (if issues = [] then "" else "  Issue: " ++ joinWith ", " issues ++ ".") ++
    if names = [] then "" else " Thanks to " ++ joinWith ", " names ++ "."

structure Block where
  heading : String
  entries : List String
deriving DecidableEq, Repr

def headings : List (String × String) :=
  [("add", "New features"), ("fix", "Fixed bugs"), ("update", "Changes"), ("remove", "Removed")]

def blocks (actions : List Action) : List Block :=
  (headings.map fun heading =>
    Block.mk heading.2 ((actions.filter (·.kind == heading.1)).map entry)).filter
      fun block => !block.entries.isEmpty

structure Part where
  name : String
  blocks : List Block
deriving DecidableEq, Repr

def parts (components : List Component) : List Part :=
  (components.map fun component => Part.mk component.name (blocks component.actions)).filter
    fun part => !part.blocks.isEmpty

def Block.text (block : Block) : String :=
  "\n" ++ block.heading ++ ":\n" ++ String.join (block.entries.map fun line => "o " ++ line ++ "\n")

def Part.text (part : Part) : String :=
  "\nChanges in " ++ part.name ++ ":\n" ++ String.join (part.blocks.map Block.text)

def changesText (release : Release) : String :=
  String.join ((blocks release.actions).map Block.text) ++
    String.join ((parts release.components).map Part.text)

def dependencyText (project : Metadata) (version : String) : String :=
  match project.groupId, project.artifactId with
  | some groupId, some artifactId =>
    "\nTo use it, add the following dependency:\n\n  <dependency>\n    <groupId>" ++ groupId ++
      "</groupId>\n    <artifactId>" ++ artifactId ++ "</artifactId>\n    <version>" ++ version ++
      "</version>\n    <type>" ++ project.packaging.getD "jar" ++ "</type>\n  </dependency>\n"
  | _, _ => ""

def announce (project : Metadata) (release : Release) : String :=
  let version := Version.stripSnapshot project.version
  let finalName := project.finalName.getD (project.name ++ "-" ++ version)
  let team := project.developmentTeam.getD (project.name ++ " team")
  let description := release.description.getD ""
  let downloadUrl := project.downloadUrl.getD ""
  "The " ++ team ++ " is pleased to announce the " ++ finalName ++ " release!\n\n" ++
    (project.introduction.or project.url).getD "" ++ "\n" ++
    (if description = "" then "" else "\n" ++ description ++ "\n") ++
    "\nChanges in this version include:\n" ++ changesText release ++ "\n" ++
    (if downloadUrl = "" then ""
      else "\nYou can download the " ++ finalName ++ " release from:\n" ++ downloadUrl ++ "\n") ++
    dependencyText project version ++ "\nHave fun!\n-" ++ team

def ofReleases (project : Metadata) (releases : List Release) : Journaled String := do
  if releases.isEmpty then
    Journaled.fail .noReleases
  else
    let release ← Journaled.ofExcept (Release.latest releases project.prefixedVersion)
    Journaled.log .info s!"Creating the announcement of release {release.version}."
    return announce project release

end ReleaseNotes.Announcement
