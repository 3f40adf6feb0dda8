import ReleaseNotes.Text.Separated

/-!
Releases and the actions that changed something in them. The actions of a module of the project
stand in a component of the release.
-/

namespace ReleaseNotes

open Text

structure Contributor where
  name : String
  email : Option String
deriving DecidableEq, Repr

namespace Contributor

/-- The trimmed parts of a list of addresses, also the empty ones. -/
def addresses (emails : Option String) : List String :=
  emails.elim [] fun text => (splitAt ',' text).map trim

/-- Each name with the address in the same place. An empty address is none. -/
def pair : List String → List String → List Contributor
  | [], _ => []
  | name :: names, [] => ⟨name, none⟩ :: pair names []
  | name :: names, email :: emails =>
    ⟨name, if email = "" then none else some email⟩ :: pair names emails

def ofLists (names emails : Option String) : List Contributor :=
  pair (commaItems names) (addresses emails)

end Contributor

def distinct (items : List String) : List String :=
  items.foldl (fun seen item => if item ∈ seen then seen else seen ++ [item]) []

structure Action where
  /-- The word for the kind of change; empty when the kind is unknown. -/
  kind : String
  text : String
  issue : Option String
  fixedIssues : List String
  developer : Option String
  contributors : List Contributor
  date : Option String
  /-- The system in which the issues are found. -/
  system : Option String
deriving DecidableEq, Repr

/-- The main issue and then the other issues, each once. -/
def Action.allIssues (action : Action) : List String :=
  distinct (action.issue.toList ++ action.fixedIssues)

structure Component where
  name : String
  description : Option String
  actions : List Action
deriving DecidableEq, Repr

structure Release where
  version : String
  date : Option String
  description : Option String
  actions : List Action
  components : List Component
deriving DecidableEq, Repr

def Component.ofRelease (name : String) (release : Release) : Component :=
  ⟨name, release.description, release.actions⟩

namespace Release

def withActionsOf (release other : Release) : Release :=
  { release with actions := release.actions ++ other.actions }

def withComponent (release : Release) (component : Component) : Release :=
  { release with components := release.components ++ [component] }

def allActions (release : Release) : List Action :=
  release.actions ++ release.components.flatMap Component.actions

def actionCount (release : Release) : Nat :=
  release.allActions.length

/-- The release in a message. Only its own actions are counted. -/
def summary (release : Release) : String :=
  "Release[version='" ++ release.version ++ "', date='" ++ release.date.getD "" ++
    "', description='" ++ release.description.getD "" ++ "', actionsSize=" ++
    toString release.actions.length ++ "]"

def summaries (releases : List Release) : String :=
  "[" ++ joinWith ", " (releases.map summary) ++ "]"

def find? (releases : List Release) (version : String) : Option Release :=
  releases.find? (·.version == version)

end Release

end ReleaseNotes
