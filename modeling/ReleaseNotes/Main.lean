import ReleaseNotes.Command.Run
import Std.Time.DateTime.Timestamp

/-!
The program. It reads the files that a command looks at into a tree, runs the command on the tree
and writes what has changed. There is no connection to servers.
-/

namespace ReleaseNotes.Program

def usage : String :=
  "Usage: harvest [-v] (report [-a] | announce | issues [--tracker TRACKER] [--columns COLUMNS] |\n" ++
    "  check | validate | query | init) [DIR]"

def addPath (tree : FileTree) (path : String) : IO FileTree := do
  let root ← IO.FS.realPath "/"
  let mut tree := tree
  let mut location : Location := []
  for name in Path.steps path do
    if name == ".." then location := location.dropLast
    else if name != "." then
      location := location ++ [name]
      let file := root / location.path
      if ← file.isDir then tree := tree.set location .directory
      else if ← file.pathExists then
        tree := tree.set location (.file (← IO.FS.readBinFile file))
  return tree

def pathsIn (directory : String) : List String :=
  [Project.metadataFile directory, Project.trackersFile directory,
    Project.changesFileIn directory] ++
    ["changes-report.html", "announcement.txt", "issues-report.html"].map fun name =>
      Path.join (Path.join directory "generated") name

def readTree (working : Location) (directory : String) : IO FileTree := do
  let base := Path.join working.path directory
  let mut tree ← addPath .empty base
  for path in pathsIn base do
    tree ← addPath tree path
  match Project.load tree working directory with
  | .error _ => return tree
  | .ok project =>
    for part in project.metadata.modules do
      tree ← addPath tree (project.moduleChangesFile part)
    return tree

/-- Writes what is new or has changed, the oldest entry first. -/
def writeChanges (former tree : FileTree) : IO Unit := do
  for (location, entry) in tree.entries.reverse do
    match entry with
    | .directory => unless former.isDirectory location do IO.FS.createDirAll location.path
    | .file content =>
      unless (former.content? location).any (·.data == content.data) do
        IO.FS.writeBinFile location.path content

def levelMark : Level → String
  | .error => "[ERROR] "
  | .warning => "[WARN] "
  | .info => "[INFO] "

def printEvent : Event → IO Unit
  | .logged entry =>
    let line := levelMark entry.level ++ entry.text
    if entry.level == .error then IO.eprintln line else IO.println line
  | .printed line => IO.println line
  | .requested _ => return

def currentTime : IO String := do
  let now ← Std.Time.Timestamp.now
  return (Time.Timestamp.mk now.toSecondsSinceUnixEpoch.val 0).toMessageDate

def runLine (line : CommandLine) : IO UInt32 := do
  let working := (Path.steps (← IO.currentDir).toString).filter (· != ".")
  let tree ← readTree working line.directory
  let environment : Environment :=
    ⟨.offline, ← IO.getEnv "JIRA_API_KEY", ← IO.getEnv "GITHUB_TOKEN"⟩
  let run := Command.run ⟨tree, working, environment, ← currentTime⟩ line.directory line.command
  run.journal.events.forM printEvent
  writeChanges tree run.tree
  match run.journal.outcome with
  | .ok _ => return 0
  | .error failure =>
    for text in failure.lines do
      IO.eprintln text
    return 1

end ReleaseNotes.Program

open ReleaseNotes in
def main (arguments : List String) : IO UInt32 := do
  match CommandLine.parse arguments with
  | .ok line => Program.runLine line
  | .error .information =>
    IO.println Program.usage
    return 0
  | .error .usage =>
    IO.eprintln Program.usage
    return 1
