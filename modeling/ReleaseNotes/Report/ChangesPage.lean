import ReleaseNotes.Changes.Document
import ReleaseNotes.Report.Anchor
import ReleaseNotes.Report.Html
import ReleaseNotes.Report.Link

/-!
The page with the history of releases and the changes in each of them. Its content is worked out
first, as rows and sections, and then laid out as HTML.
-/

namespace ReleaseNotes.ChangesPage

open Text Html

structure LinkedIssue where
  id : String
  link : Option String
deriving DecidableEq, Repr

structure Row where
  kind : String
  text : String
  issues : List LinkedIssue
  contributors : List Contributor
  developer : String
  developerLink : Option String
  date : String
deriving DecidableEq, Repr

/-- A text before a list of issues ends like a sentence. -/
def sentence (text : String) : String :=
  if text = "" || text.toList.getLast? == some '.' then text else text ++ "."

def Row.ofAction (linker : Linker) (team : Option String) (action : Action) : Row :=
  let issues := action.allIssues.map fun issue => ⟨issue, linker.link issue action.system⟩
  let developer := action.developer.getD ""
  { kind := action.kind
    text := if issues.isEmpty then action.text else sentence action.text
    issues := issues
    contributors := action.contributors
    developer := developer
    developerLink := (team.filter fun _ => developer != "").map fun team => team ++ "#" ++ developer
    date := action.date.getD "" }

structure Group where
  name : String
  rows : List Row
deriving DecidableEq, Repr

structure Section where
  version : String
  anchor : String
  date : String
  description : String
  rows : List Row
  groups : List Group
  added : Nat
  fixed : Nat
  updated : Nat
  removed : Nat
deriving DecidableEq, Repr

def countOf (kind : String) (release : Release) : Nat :=
  release.allActions.countP (·.kind == kind)

/-- Components without actions are not shown. -/
def Section.ofRelease (linker : Linker) (team : Option String) (release : Release) : Section where
  version := release.version
  anchor := Anchor.ofVersion release.version
  date := release.date.getD ""
  description := release.description.getD ""
  rows := release.actions.map (Row.ofAction linker team)
  groups := (release.components.filter fun component => !component.actions.isEmpty).map
    fun component => ⟨component.name, component.actions.map (Row.ofAction linker team)⟩
  added := countOf "add" release
  fixed := countOf "fix" release
  updated := countOf "update" release
  removed := countOf "remove" release

def Section.isEmpty (part : Section) : Bool :=
  part.rows.isEmpty && part.groups.isEmpty

structure Content where
  title : String
  author : Option String
  authorEmail : Option String
  sections : List Section
  showActionDate : Bool
deriving DecidableEq, Repr

def Content.of (project : Metadata) (document : ChangesDocument) (releases : List Release)
    (showActionDate : Bool) : Content where
  title := (nonBlank? document.title).getD (project.name ++ " changes")
  author := nonBlank? document.author
  authorEmail := nonBlank? document.authorEmail
  sections := releases.map (Section.ofRelease (.ofProject project) (nonBlank? project.team))
  showActionDate := showActionDate

def styles : List (String × String) :=
  [ ("body", "font-family: sans-serif; margin: 2em;"),
    ("table", "border-collapse: collapse; margin-bottom: 2em;"),
    ("th, td",
      "border: 1px solid #ccc; padding: 0.3em 0.6em; text-align: left; vertical-align: top;"),
    ("th", "background-color: #eee;"),
    (".type", "font-weight: bold; text-transform: uppercase; font-size: smaller;"),
    (".type-add", "color: #2a7a2a;"),
    (".type-fix", "color: #a02020;"),
    (".type-update", "color: #2050a0;"),
    (".type-remove", "color: #707070;"),
    (".component th", "background-color: #f6f6f6;"),
    ("footer", "color: #777; font-size: smaller;") ]

def commaLines : List Html → Html
  | [] => []
  | [item] => markup "\n      " ++ item ++ markup "\n      "
  | item :: items => markup "\n      " ++ item ++ markup ", \n      " ++ commaLines items

def listing (words : String) (items : List Html) : Html :=
  onlyIf (!items.isEmpty)
    (markup ("\n      " ++ words ++ "\n      ") ++ commaLines items ++ markup ".\n      ")

def Row.html (showDate : Bool) (row : Row) : Html :=
  markup "  <tr>\n    <td><span class=\"type type-" ++ escaped row.kind ++ markup "\">" ++
    escaped row.kind ++ markup "</span></td>\n    <td>\n      " ++ escaped row.text ++
    markup "\n      " ++
    listing "Fixes" (row.issues.map fun issue => linked issue.link issue.id) ++
    markup "\n      " ++
    listing "Thanks to" (row.contributors.map fun person => mailLinked person.email person.name) ++
    markup "\n    </td>\n    <td>" ++ linked row.developerLink row.developer ++
    markup "</td>\n    " ++
    onlyIf showDate (markup "<td>" ++ escaped row.date ++ markup "</td>") ++ markup "\n  </tr>"

def rowsHtml (showDate : Bool) (rows : List Row) : Html :=
  rows.flatMap fun row => markup "\n  " ++ row.html showDate ++ markup "\n  "

def Group.html (showDate : Bool) (group : Group) : Html :=
  markup "\n  <tr class=\"component\">\n    <th></th>\n    <th>" ++ escaped group.name ++
    markup "</th>\n    <th></th>\n    " ++ onlyIf showDate (markup "<th></th>") ++
    markup "\n  </tr>\n  " ++ rowsHtml showDate group.rows ++ markup "\n  "

def Section.historyHtml (part : Section) : Html :=
  markup "\n  <tr>\n    <td><a href=\"#" ++ escaped part.anchor ++ markup "\">" ++
    escaped part.version ++ markup "</a></td>\n    <td>" ++ escaped part.date ++
    markup "</td>\n    <td>" ++ escaped part.description ++ markup "</td>\n    <td>" ++
    number part.added ++ markup "</td>\n    <td>" ++ number part.fixed ++
    markup "</td>\n    <td>" ++ number part.updated ++ markup "</td>\n    <td>" ++
    number part.removed ++ markup "</td>\n  </tr>\n  "

def Section.tableHtml (showDate : Bool) (part : Section) : Html :=
  markup "\n<table>\n  <tr>\n    <th>Type</th>\n    <th>Changes</th>\n    <th>By</th>\n    " ++
    onlyIf showDate (markup "<th>Date</th>") ++ markup "\n  </tr>\n  " ++
    rowsHtml showDate part.rows ++ markup "\n  " ++
    part.groups.flatMap (Group.html showDate) ++ markup "\n</table>\n"

def Section.html (showDate : Bool) (part : Section) : Html :=
  markup "\n<section id=\"" ++ escaped part.anchor ++ markup "\">\n<h2>Release " ++
    escaped part.version ++ onlyIf (part.date != "") (markup " &ndash; " ++ escaped part.date) ++
    markup "</h2>\n" ++
    (if part.isEmpty then markup "\n<p>No changes in this release.</p>\n"
      else part.tableHtml showDate) ++
    markup "\n</section>\n"

def Content.authorHtml (content : Content) : Html :=
  match content.author with
  | some author =>
    markup "\n<p class=\"author\">By " ++ mailLinked content.authorEmail author ++ markup "</p>\n"
  | none => markup "\n"

def Content.html (content : Content) (generatedOn : String) : Html :=
  head content.title styles ++ content.authorHtml ++
    markup "\n\n<h2>Release history</h2>\n<table>\n  <tr>\n    <th>Version</th>\n    " ++
    markup "<th>Date</th>\n    <th>Description</th>\n    <th>Added</th>\n    " ++
    markup "<th>Fixed</th>\n    <th>Updated</th>\n    <th>Removed</th>\n  </tr>\n  " ++
    content.sections.flatMap Section.historyHtml ++ markup "\n</table>\n\n" ++
    content.sections.flatMap (Section.html content.showActionDate) ++ markup "\n" ++
    foot generatedOn

def report (project : Metadata) (document : ChangesDocument) (releases : List Release)
    (showActionDate : Bool) (generatedOn : String) : Journaled String := do
  Journaled.logAll (Linker.ofProject project).complaints
  return ((Content.of project document releases showActionDate).html generatedOn).render

end ReleaseNotes.ChangesPage
