import ReleaseNotes.Failure
import ReleaseNotes.Text.Separated

/-!
Addresses of projects in Jira. The address of a project is that of the server, a fixed step and the
key of the project.
-/

namespace ReleaseNotes

open Text

structure JiraAddress where
  /-- The address of the server. -/
  base : String
  /-- The key of the project. -/
  project : String
deriving DecidableEq, Repr

namespace JiraAddress

def afterScheme? (chars : List Char) : Option (List Char) :=
  (afterStart? "http://".toList chars).or (afterStart? "https://".toList chars)

def withoutSlash (chars : List Char) : List Char :=
  if chars.getLast? = some '/' then chars.dropLast else chars

def beforeEnd? (ending chars : List Char) : Option (List Char) :=
  (afterStart? ending.reverse chars.reverse).map List.reverse

def parts? (chars : List Char) : Option (List Char × List Char) := do
  if chars.any isBlank then none
  let (before, key) ← splitLast? (· == '/') (withoutSlash chars)
  let base ← beforeEnd? "/browse".toList before
  let host ← afterScheme? base
  if key = [] || host = [] then none else some (base, key)

/-- Reads the address of a project, which may have blanks around it and a slash at its end. -/
def parse (url : String) : Except Cause JiraAddress :=
  match parts? (trimChars url.toList) with
  | some (base, key) => .ok ⟨String.ofList base, String.ofList key⟩
  | none => .error (.invalidJiraUrl url)

def issueUrl (base key : String) : String := base ++ "/browse/" ++ key

end JiraAddress

end ReleaseNotes
