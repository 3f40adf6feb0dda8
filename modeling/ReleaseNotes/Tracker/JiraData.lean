import ReleaseNotes.Issue
import ReleaseNotes.Json.Decode
import ReleaseNotes.Text.Separated
import ReleaseNotes.Tracker.JiraAddress

/-!
What Jira answers: lists of named things, errors and issues.
-/

namespace ReleaseNotes.JiraData

open Json Text

structure Named where
  id : Option String
  name : String
deriving DecidableEq, Repr

def named? (json : Json) : Option Named := do
  let record ← Record.ofJson? ["id", "name"] json
  return ⟨← record.optional? "id" text?, ← record.required? "name" text?⟩

/-- The name of a user: the one that is shown, or else the one to log in with. -/
def userName? (json : Json) : Option (Option String) := do
  let record ← Record.ofJson? ["name", "displayName"] json
  let name ← record.optional? "name" text?
  let shown ← record.optional? "displayName" text?
  return shown.or name

/-- The messages of an error: those of its list, those about fields and a last one. -/
def errorMessages? (json : Json) : Option (List String) := do
  let record ← Record.ofJson? ["errorMessages", "errors", "message"] json
  let messages ← record.withDefault? "errorMessages" [] (list? text?)
  let errors ← record.withDefault? "errors" [] textMap?
  let message ← record.optional? "message" text?
  return messages ++ errors.map (fun (field, error) => field ++ ": " ++ error) ++ message.toList

def versionText : List Named → Option String
  | [] => none
  | versions => some (joinWith ", " (versions.map Named.name))

def fieldNames : List String :=
  [ "summary", "issuetype", "status", "resolution", "priority", "assignee", "reporter", "versions",
    "fixVersions", "components", "created", "updated" ]

def fields? (id key : String) (json : Json) : Option Issue := do
  let record ← Record.ofJson? fieldNames json
  let name (field : String) : Option (Option String) := do
    return (← record.optional? field named?).map Named.name
  let user (field : String) : Option (Option String) := do
    return (← record.optional? field userName?).join
  let names (field : String) := record.withDefault? field [] (list? named?)
  let time (field : String) : Option (Option Time.Timestamp) := do
    return (← record.optional? field text?).bind Time.Timestamp.ofCompactOffset?
  return { Issue.ofKey key (← record.withDefault? "summary" "" text?) with
    id := id
    kind := ← name "issuetype"
    status := ← name "status"
    resolution := ← name "resolution"
    priority := ← name "priority"
    assignee := ← user "assignee"
    reporter := ← user "reporter"
    version := versionText (← names "versions")
    created := ← time "created"
    updated := ← time "updated"
    fixVersions := (← names "fixVersions").map Named.name
    components := (← names "components").map Named.name }

def issue? (base : String) (json : Json) : Option Issue := do
  let record ← Record.ofJson? ["id", "key", "fields"] json
  let id ← record.required? "id" text?
  let key ← record.required? "key" text?
  let issue ← record.required? "fields" (fields? id key)
  return { issue with link := some (JiraAddress.issueUrl base key) }

def found? (base : String) (json : Json) : Option (List Issue) := do
  let record ← Record.ofJson? ["issues"] json
  record.withDefault? "issues" [] (list? (issue? base))

end ReleaseNotes.JiraData
