import ReleaseNotes.Report.Column
import ReleaseNotes.Report.Html

/-!
The page with a table of issues, one row for an issue and one cell for each chosen column.
-/

namespace ReleaseNotes.IssuesPage

open Text Html

structure Cell where
  text : String
  link : Option String
deriving DecidableEq, Repr

def Cell.plain (text : String) : Cell := ⟨text, none⟩

def cell (issue : Issue) : Column → Cell
  | .id => ⟨issue.id, issue.link⟩
  | .key => ⟨issue.key, issue.link⟩
  | .assignee => .plain (issue.assignee.getD "")
  | .component => .plain (joinWith ", " issue.components)
  | .created => .plain ((issue.created.map Time.Timestamp.minuteText).getD "")
  | .fixVersion => .plain (joinWith ", " issue.fixVersions)
  | .priority => .plain (issue.priority.getD "")
  | .reporter => .plain (issue.reporter.getD "")
  | .resolution => .plain (issue.resolution.getD "")
  | .status => .plain (issue.status.getD "")
  | .summary => .plain issue.summary
  | .type => .plain (issue.kind.getD "")
  | .updated => .plain ((issue.updated.map Time.Timestamp.minuteText).getD "")
  | .version => .plain (issue.version.getD "")

structure Table where
  headers : List String
  rows : List (List Cell)
deriving DecidableEq, Repr

def Table.of (columns : List Column) (issues : List Issue) : Table where
  headers := columns.map Column.label
  rows := issues.map fun issue => columns.map (cell issue)

def styles : List (String × String) :=
  [ ("body", "font-family: sans-serif; margin: 2em;"),
    ("table", "border-collapse: collapse; margin-bottom: 2em;"),
    ("th, td",
      "border: 1px solid #ccc; padding: 0.3em 0.6em; text-align: left; vertical-align: top;"),
    ("th", "background-color: #eee;"),
    ("footer", "color: #777; font-size: smaller;") ]

def headerHtml (header : String) : Html :=
  markup "\n    <th>" ++ escaped header ++ markup "</th>\n    "

def Cell.html (cell : Cell) : Html :=
  markup "\n    \n    <td>" ++ linked cell.link cell.text ++ markup "</td>\n    \n    "

def rowHtml (row : List Cell) : Html :=
  markup "\n  <tr>\n    " ++ row.flatMap Cell.html ++ markup "\n  </tr>\n  "

def Table.html (table : Table) : Html :=
  if table.rows.isEmpty then markup "\n<p>No issues found.</p>\n"
  else
    markup "\n<table>\n  <tr>\n    " ++ table.headers.flatMap headerHtml ++
      markup "\n  </tr>\n  " ++ table.rows.flatMap rowHtml ++ markup "\n</table>\n"

def pageHtml (title : String) (table : Table) (generatedOn : String) : Html :=
  head title styles ++ markup "\n" ++ table.html ++ markup "\n" ++ foot generatedOn

def report (title : String) (columns : List Column) (issues : List Issue) (generatedOn : String) :
    String :=
  (pageHtml title (.of columns issues) generatedOn).render

end ReleaseNotes.IssuesPage
