import ReleaseNotes.Release.Basic

/-!
The content of a changes file, and the problems that it can have although it could be read.
-/

namespace ReleaseNotes

open Text

structure ChangesDocument where
  title : Option String
  author : Option String
  authorEmail : Option String
  releases : List Release
deriving DecidableEq, Repr

namespace ChangesDocument

def empty : ChangesDocument := ⟨none, none, none, []⟩

def actionKinds : List String := ["add", "fix", "update", "remove"]

inductive Problem where
  | emptyVersion (place : Nat)
  | repeatedVersion (version : String)
  | invalidKind (version label kind : String)
  | noText (version label : String)
deriving DecidableEq, Repr

def Problem.message : Problem → String
  | .emptyVersion place => s!"Release #{place} has an empty version."
  | .repeatedVersion version => s!"Release {version} is listed more than once."
  | .invalidKind version label kind =>
    s!"Release {version}: action {label} has an invalid type `{kind}`. " ++
      "Use one of: " ++ joinWith ", " actionKinds ++ "."
  | .noText version label => s!"Release {version}: action {label} has no text."

def actionProblems (version : String) (action : Action) : List Problem :=
  let label := action.issue.getD "without an issue"
  (if actionKinds.contains action.kind then [] else [.invalidKind version label action.kind]) ++
    if action.text = "" then [.noText version label] else []

/-- The problem of a version at a place of the list, after the versions before it. -/
def versionProblems (earlier : List String) (place : Nat) (version : String) : List Problem :=
  if version = "" then [.emptyVersion place]
  else if version ∈ earlier then [.repeatedVersion version]
  else []

def problemsAfter (earlier : List String) (place : Nat) : List Release → List Problem
  | [] => []
  | release :: rest =>
    let version := trim release.version
    versionProblems earlier place version ++
      release.actions.flatMap (actionProblems version) ++
      problemsAfter (version :: earlier) (place + 1) rest

/-- The problems of a document, in the order of its releases and actions. -/
def problems (document : ChangesDocument) : List Problem :=
  problemsAfter [] 1 document.releases

end ChangesDocument

end ReleaseNotes
