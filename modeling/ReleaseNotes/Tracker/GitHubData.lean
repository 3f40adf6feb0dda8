import ReleaseNotes.Issue
import ReleaseNotes.Json.Decode
import ReleaseNotes.Tracker.GitHubRepository

/-!
What GitHub answers: issues, among which there are pull requests, and errors.
-/

namespace ReleaseNotes

open Json

structure GitHubItem where
  number : Nat
  title : String
  state : String
  labels : List String
  milestone : Option String
  assignee : Option String
  author : Option String
  created : Option String
  updated : Option String
  isPullRequest : Bool
deriving DecidableEq, Repr

namespace GitHubItem

def textOf? (name : String) (json : Json) : Option String := do
  let record ← Record.ofJson? [name] json
  record.required? name text?

def fieldNames : List String :=
  [ "number", "title", "state", "labels", "milestone", "assignee", "user", "created_at",
    "updated_at", "pull_request" ]

def ofJson? (json : Json) : Option GitHubItem := do
  let record ← Record.ofJson? fieldNames json
  return {
    number := ← record.required? "number" word?
    title := ← record.required? "title" text?
    state := ← record.required? "state" text?
    labels := ← record.withDefault? "labels" [] (list? (textOf? "name"))
    milestone := ← record.optional? "milestone" (textOf? "title")
    assignee := ← record.optional? "assignee" (textOf? "login")
    author := ← record.optional? "user" (textOf? "login")
    created := ← record.optional? "created_at" text?
    updated := ← record.optional? "updated_at" text?
    isPullRequest := (← record.optional? "pull_request" fun json => json.full? 2).isSome }

def errorMessage? (json : Json) : Option String := textOf? "message" json

/-- Pull requests are not wanted, and issues without a milestone only if the settings say so. -/
def isWanted (onlyMilestoneIssues : Bool) (item : GitHubItem) : Bool :=
  !item.isPullRequest && (!onlyMilestoneIssues || item.milestone.isSome)

/-- The issue, with a link below the address of the list. The first label is its type, and its
milestone is the version in which it is fixed. -/
def toIssue (issuesUrl : String) (item : GitHubItem) : Issue :=
  let key := toString item.number
  { Issue.ofKey key item.title with
    link := some (GitHubRepository.issueUrl issuesUrl key)
    kind := item.labels.head?
    status := some item.state
    assignee := item.assignee
    reporter := item.author
    created := item.created.bind Time.Timestamp.ofInternet?
    updated := item.updated.bind Time.Timestamp.ofInternet?
    fixVersions := item.milestone.toList }

end GitHubItem

end ReleaseNotes
