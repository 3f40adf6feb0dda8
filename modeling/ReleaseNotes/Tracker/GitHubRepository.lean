import ReleaseNotes.Failure
import ReleaseNotes.Text.Separated

/-!
Addresses of repositories on GitHub. The address can go on to the list of issues, and the name of
the repository can have the ending that is used for cloning.
-/

namespace ReleaseNotes

open Text

structure GitHubRepository where
  /-- The address of the programming interface. -/
  apiUrl : String
  owner : String
  name : String
  /-- The address of the list of issues. -/
  issuesUrl : String
deriving DecidableEq, Repr

namespace GitHubRepository

def cloneEnding : List Char := ".git".toList

/-- The name of a repository without the ending for cloning, unless nothing else is there. -/
def bareName (segment : List Char) : List Char :=
  match afterStart? cloneEnding.reverse segment.reverse with
  | some (c :: rest) => (c :: rest).reverse
  | _ => segment

def isEnd (rest : List (List Char)) : Bool :=
  let issues := "issues".toList
  rest == [] || rest == [[]] || rest == [issues] || rest == [issues, []]

/-- The repository on a host. One host has its programming interface at an address of its own. -/
def onHost (scheme host owner name : String) : GitHubRepository where
  apiUrl :=
    if host = "github.com" then "https://api.github.com"
    else scheme ++ "://" ++ host ++ "/api/v3"
  owner := owner
  name := name
  issuesUrl := scheme ++ "://" ++ host ++ "/" ++ owner ++ "/" ++ name ++ "/issues"

def parts? (chars : List Char) : Option GitHubRepository :=
  if chars.any isBlank then none
  else
    match chars.splitOn '/' with
    | scheme :: [] :: host :: owner :: segment :: rest =>
      if (scheme == "http:".toList || scheme == "https:".toList) && host != [] && owner != [] &&
          segment != [] && isEnd rest then
        some (onHost (String.ofList scheme.dropLast) (String.ofList host) (String.ofList owner)
          (String.ofList (bareName segment)))
      else none
    | _ => none

def parse (url : String) : Except Cause GitHubRepository :=
  match parts? (trimChars url.toList) with
  | some repository => .ok repository
  | none => .error (.invalidGitHubUrl url)

def issueUrl (issuesUrl key : String) : String := issuesUrl ++ "/" ++ key

end GitHubRepository

end ReleaseNotes
