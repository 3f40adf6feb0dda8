import ReleaseNotes.Changes.Text
import ReleaseNotes.Files.Tree
import ReleaseNotes.Journal
import ReleaseNotes.Project.Text

/-!
Loading a project from its directory. One directory inside holds all that is configured, and
another one what is generated.
-/

namespace ReleaseNotes

structure Project where
  /-- The directory of the project. -/
  baseDirectory : String
  metadata : Metadata
  trackers : TrackerSettings
deriving DecidableEq, Repr

namespace Project

def configurationFile (directory name : String) : String :=
  Path.join (Path.join directory "harvest") name

def metadataFile (directory : String) : String := configurationFile directory "project.yaml"

def trackersFile (directory : String) : String := configurationFile directory "trackers.yaml"

def changesFileIn (directory : String) : String := configurationFile directory "changes.yaml"

def changesFile (project : Project) : String := changesFileIn project.baseDirectory

def generatedDirectory (project : Project) : String := Path.join project.baseDirectory "generated"

def moduleChangesFile (project : Project) (part : Module) : String :=
  changesFileIn (Path.join project.baseDirectory part.path)

def readFile (tree : FileTree) (context : Context) (path : String) : Except Failure String :=
  match tree.readText? path with
  | some text => .ok text
  | none => .error ⟨[context], .fileSystem⟩

def loadTrackers (tree : FileTree) (directory : String) : Except Failure TrackerSettings :=
  let path := trackersFile directory
  if tree.exists? path then do TrackerSettings.parse (← readFile tree .readingTrackers path)
  else .ok .default

def load (tree : FileTree) (working : Location) (directory : String) : Except Failure Project :=
  match tree.find? working directory with
  | none => .error ⟨[.accessingProject directory], .fileSystem⟩
  | some location => do
    let base := location.path
    let path := metadataFile base
    let metadata ← Metadata.parse (← readFile tree (.readingProject path) path)
    return ⟨base, metadata, ← loadTrackers tree base⟩

end Project

namespace ChangesDocument

/-- Loads a changes file. A file that is missing says nothing. -/
def load (tree : FileTree) (path : String) : Journaled ChangesDocument :=
  if tree.exists? path then
    ⟨[], do
      let source ← Project.readFile tree (.readingChanges path) path
      (parse source).mapError (·.within (.invalidChanges path))⟩
  else do
    Journaled.log .warning s!"The changes file does not exist: {path}"
    return empty

end ChangesDocument

end ReleaseNotes
