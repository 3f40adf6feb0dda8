import ReleaseNotes.Command.Example
import ReleaseNotes.Command.Line
import ReleaseNotes.Query.Configured
import ReleaseNotes.Release.Check
import ReleaseNotes.Report.Announcement
import ReleaseNotes.Report.ChangesPage
import ReleaseNotes.Report.IssuesPage
import ReleaseNotes.Tracker.Collection

/-!
The commands. Each one works out what to write from the files as they are, and writes it at the
end; a command that fails before that leaves the files alone. What was created before something
was in the way is not taken back.
-/

namespace ReleaseNotes

structure Setting where
  tree : FileTree
  /-- The directory that relative paths are seen from. -/
  working : Location
  environment : Environment
  /-- The time to put on pages. -/
  time : String

structure Run where
  tree : FileTree
  journal : Journaled Unit

structure Output where
  project : Project
  name : String
  content : String

namespace Command

def loadProject (setting : Setting) (directory : String) : Journaled Project :=
  ⟨[], Project.load setting.tree setting.working directory⟩

/-- The changes file of a project that draws on it. -/
def document (setting : Setting) (project : Project) : Journaled ChangesDocument :=
  if project.metadata.origins.contains .changesFile then
    ChangesDocument.load setting.tree project.changesFile
  else return .empty

def changesOutput (setting : Setting) (showActionDate : Bool) (directory : String) :
    Journaled Output := do
  let project ← loadProject setting directory
  Journaled.log .info s!"Building the changes report in {project.baseDirectory}"
  let releases ← project.releases setting.tree setting.environment
  let document ← document setting project
  let page ←
    ChangesPage.report project.metadata document releases showActionDate setting.time
  return ⟨project, "changes-report.html", page⟩

def announcementOutput (setting : Setting) (directory : String) : Journaled Output := do
  let project ← loadProject setting directory
  Journaled.log .info s!"Building the announcement in {project.baseDirectory}"
  let releases ← project.releases setting.tree setting.environment
  let text ← Announcement.ofReleases project.metadata releases
  return ⟨project, "announcement.txt", text⟩

def configuredColumns (project : Project) : Origin → Option String
  | .jira => project.trackers.jira.columns
  | .gitHub => project.trackers.gitHub.columns
  | .changesFile => none

def issuesOutput (setting : Setting) (tracker : Option Origin) (columns : Option String)
    (directory : String) : Journaled Output := do
  let project ← loadProject setting directory
  let origin ← Journaled.ofExcept (project.reportTracker tracker)
  let names := (columns.or (configuredColumns project origin)).getD (Column.usual origin)
  let columns ← Column.select origin names
  Journaled.log .info s!"Building the issues report in {project.baseDirectory}"
  let issues ← project.issues setting.environment origin
  let title := project.metadata.name ++ " issues"
  return ⟨project, "issues-report.html", IssuesPage.report title columns issues setting.time⟩

def checkRelease (setting : Setting) (directory : String) : Journaled Unit := do
  let project ← loadProject setting directory
  let changes ← ChangesDocument.load setting.tree project.changesFile
  Release.check changes.releases project.metadata.version project.metadata.datePattern

def validateChanges (setting : Setting) (directory : String) : Journaled Unit := do
  let project ← loadProject setting directory
  let path := project.changesFile
  let changes ← ChangesDocument.load setting.tree path
  let problems := changes.problems
  Journaled.logAll (problems.map fun problem => ⟨.error, problem.message⟩)
  if problems.isEmpty then Journaled.log .info s!"The changes file is valid: {path}"
  else Journaled.fail (.problemsFound problems.length path)

/-- The query that a project configures, as Jira is asked in the form that it wants. -/
def queryText (setting : Setting) (directory : String) : Journaled String := do
  let project ← loadProject setting directory
  match project.metadata.trackerUrl? with
  | none => Journaled.fail .noIssueManagementUrl
  | some url =>
    let address ← Journaled.ofExcept (JiraAddress.parse url)
    let jira := project.trackers.jira
    let settings :=
      Query.configured jira address.project (Project.currentVersion? project.metadata)
    if jira.useJql then Query.configuredJql false settings
    else Query.configuredParameters settings

def save (tree : FileTree) (output : Output) : Run :=
  let directory := output.project.generatedDirectory
  let path := Path.join directory output.name
  match tree.createDirectories [] directory with
  | none => ⟨tree, .failWith ⟨[.creatingOutputDirectory], .fileSystem⟩⟩
  | some prepared =>
    match prepared.write path output.content.toUTF8 with
    | none => ⟨prepared, .failWith ⟨[.writing path], .fileSystem⟩⟩
    | some written => ⟨written, Journaled.log .info s!"Saved {path}"⟩

def saving (setting : Setting) (output : Journaled Output) : Run :=
  match output.outcome with
  | .error failure => ⟨setting.tree, ⟨output.events, .error failure⟩⟩
  | .ok file =>
    let run := save setting.tree file
    ⟨run.tree, output >>= fun _ => run.journal⟩

def pathList (paths : List String) : String :=
  Text.joinWith "\n" (paths.map ("• " ++ ·))

/-- Fills a directory that exists with the files of the example. None of them may be there. -/
def fill (tree : FileTree) (base : String) : Run :=
  let targets := Example.files.map fun file => Path.join base file.1
  let beginning := Journaled.log .info s!"Initializing a project in {base}"
  match targets.filter tree.exists? with
  | [] =>
    let announced := do
      beginning
      Journaled.log .info ("Creating files:\n" ++ pathList targets)
    let extracted := Embedded.extractAll tree base Example.entries
    if extracted.isDone then ⟨extracted.tree, announced⟩
    else ⟨extracted.tree, announced >>= fun _ => .failWith ⟨[.copyingExamples], .fileSystem⟩⟩
  | existing => ⟨tree, beginning >>= fun _ => .fail (.filesExist (pathList existing))⟩

/-- The tree with a directory in it, and what is logged when it has to be created. -/
def prepared (setting : Setting) (directory : String) : FileTree × Journaled Unit :=
  if (setting.tree.find? setting.working directory).isSome then (setting.tree, return)
  else
    let notice := Journaled.log .info "The directory does not exist. Creating."
    let created := setting.tree.attemptDirectories setting.working directory
    if created.isDone then (created.tree, notice)
    else
      (created.tree,
        notice >>= fun _ => .failWith ⟨[.creatingProjectDirectory], .fileSystem⟩)

def initialized (setting : Setting) (directory : String) : Run :=
  let (tree, notice) := prepared setting directory
  match notice.outcome with
  | .error _ => ⟨tree, notice⟩
  | .ok _ =>
    match tree.find? setting.working directory with
    | none => ⟨tree, notice >>= fun _ => .failWith ⟨[], .fileSystem⟩⟩
    | some location =>
      let run := fill tree location.path
      ⟨run.tree, notice >>= fun _ => run.journal⟩

def run (setting : Setting) (directory : String) : Command → Run
  | .report showActionDate => saving setting (changesOutput setting showActionDate directory)
  | .announce => saving setting (announcementOutput setting directory)
  | .issues tracker columns => saving setting (issuesOutput setting tracker columns directory)
  | .check => ⟨setting.tree, checkRelease setting directory⟩
  | .validate => ⟨setting.tree, validateChanges setting directory⟩
  | .query =>
    ⟨setting.tree, do
      let text ← queryText setting directory
      Journaled.note (.printed text)⟩
  | .init =>
    let run := initialized setting directory
    ⟨run.tree, run.journal.within .initializing⟩

end Command

end ReleaseNotes
