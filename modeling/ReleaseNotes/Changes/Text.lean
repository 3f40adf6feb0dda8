import ReleaseNotes.Changes.Document
import ReleaseNotes.Yaml.Decode

/-!
Reading changes files. Names and addresses of contributors and further issues are comma lists, and
a blank issue is none.
-/

namespace ReleaseNotes.ChangesDocument

open Text Yaml Decoder

def actionFields : List String :=
  ["type", "text", "issue", "fixes_issues", "dev", "due_to", "due_to_email", "date", "system"]

def action? (fields : Fields) : Option Action := do
  let kind ← fields.withDefault? "type" "" text
  let words ← fields.withDefault? "text" "" text
  let issue ← fields.optional? "issue" text
  let fixedIssues ← fields.optional? "fixes_issues" text
  let developer ← fields.optional? "dev" text
  let names ← fields.optional? "due_to" text
  let emails ← fields.optional? "due_to_email" text
  let date ← fields.optional? "date" text
  let system ← fields.optional? "system" text
  return {
    kind := trim kind
    text := trim words
    issue := nonBlank? issue
    fixedIssues := commaItems fixedIssues
    developer := developer
    contributors := Contributor.ofLists names emails
    date := date
    system := system }

def release? (fields : Fields) : Option Release := do
  let version ← fields.required? "version" text
  let date ← fields.optional? "date" text
  let description ← fields.optional? "description" text
  let actions ← fields.withDefault? "actions" [] (list (record actionFields action?))
  return ⟨version, date, description, actions, []⟩

def document? (fields : Fields) : Option ChangesDocument := do
  let title ← fields.optional? "title" text
  let author ← fields.optional? "author" text
  let authorEmail ← fields.optional? "author_email" text
  let releases ← fields.withDefault? "releases" []
    (list (record ["version", "date", "description", "actions"] release?))
  return ⟨title, author, authorEmail, releases⟩

def parse (source : String) : Except Failure ChangesDocument :=
  (decode (record ["title", "author", "author_email", "releases"] document?) source).mapError
    fun cause => (Failure.ofCause cause).within .parsingChanges

end ReleaseNotes.ChangesDocument
