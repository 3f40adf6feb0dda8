import Mathlib.Data.List.Forall2
import ReleaseNotes.Proofs.Report.Anchoring
import ReleaseNotes.Proofs.Report.ColumnChoice
import ReleaseNotes.Report.IssuesPage

/-!
The page with the issues. Read as a tree, it has a table with a heading for each column and a row
for each issue. Each cell of a row shows what the issue has in the column whose label is the heading
above it. A sentence takes the place of the table if there are no issues.
-/

namespace ReleaseNotes

namespace Html

def target? : Node → Option String
  | .element source _ =>
    ((valueAfter? "a href=\"" source).bind read?).map fun nodes => String.ofList (textOf nodes)
  | _ => none

theorem target?_link (address : String) (content : List Node) :
    target? (.ofTag (withValue "a href=\"" address) content) = some address := by
  have hread : read? (escaped address).render = some (plain address) :=
    (Spells.escaped address).read?_render
  rw [Node.ofTag, target?, valueAfter?_withValue_eq, Option.bind_some, hread, Option.map_some,
    textOf_plain, String.ofList_toList]

/-- A text with an optional link leads to its address. -/
theorem targets_linkedNodes (content : String) (address : Option String) :
    (linkedNodes "a href=\"" content address).filterMap target? = address.toList := by
  cases address with
  | none => exact filterMap_plain (fun _ => rfl) content
  | some address => rw [linkedNodes, List.filterMap_cons_some (target?_link address _)]; rfl

end Html

namespace IssuesPage

open Html

section Layout

def Cell.node (cell : Cell) : Node :=
  .ofTag "td" (linkedNodes "a href=\"" cell.text cell.link)

def cellElement (cell : Cell) : List Node :=
  plain "\n    \n    " ++ [cell.node] ++ plain "\n    \n    "

def rowNodes (row : List Cell) : List Node :=
  plain "\n    " ++ row.flatMap cellElement ++ plain "\n  "

def rowElement (row : List Cell) : List Node :=
  plain "\n  " ++ [.ofTag "tr" (rowNodes row)] ++ plain "\n  "

def headerElement (header : String) : List Node :=
  plain "\n    " ++ [.ofTag "th" (plain header)] ++ plain "\n    "

namespace Table

def titleNodes (table : Table) : List Node :=
  plain "\n    " ++ table.headers.flatMap headerElement ++ plain "\n  "

def tableNodes (table : Table) : List Node :=
  plain "\n  " ++ [.ofTag "tr" table.titleNodes] ++ plain "\n  " ++
    table.rows.flatMap rowElement ++ plain "\n"

def nodes (table : Table) : List Node :=
  if table.rows.isEmpty then plain "\n" ++ [.ofTag "p" (plain "No issues found.")] ++ plain "\n"
  else plain "\n" ++ [.ofTag "table" table.tableNodes] ++ plain "\n"

end Table

end Layout

section Spelling

theorem isTag_table : ∀ source ∈ ["table", "tr", "td", "th", "p"], IsTag source := by
  decide +kernel

theorem spells_cell (cell : Cell) : Spells cell.html (cellElement cell) := by
  have hlink := spells_linked cell.link cell.text
  constructor
  · simp [Cell.html, cellElement, Cell.node, hlink.chars_eq, nameOf, reference]
  · simp [cellElement, Cell.node, isSound_ofTag, isTag_table, hlink.allSound]

theorem spells_row (row : List Cell) : Spells (rowHtml row) (rowElement row) := by
  have hcells := Spells.flatMap spells_cell row
  constructor
  · simp only [rowHtml, List.flatMap_append, hcells.chars_eq]
    simp [rowElement, rowNodes, nameOf, reference]
  · simp [rowElement, rowNodes, isSound_ofTag, isTag_table, hcells.allSound]

theorem spells_header (header : String) : Spells (headerHtml header) (headerElement header) := by
  constructor
  · simp [headerHtml, headerElement, nameOf, reference]
  · simp [headerElement, isSound_ofTag, isTag_table]

theorem spells_table (table : Table) : Spells table.html table.nodes := by
  have hheaders := Spells.flatMap spells_header table.headers
  have hrows := Spells.flatMap spells_row table.rows
  by_cases hempty : table.rows.isEmpty = true
  · rw [Table.html, Table.nodes, if_pos hempty, if_pos hempty]
    constructor
    · simp [nameOf, reference]
    · simp [isSound_ofTag, isTag_table]
  · rw [Table.html, Table.nodes, if_neg hempty, if_neg hempty]
    constructor
    · simp only [List.flatMap_append, hheaders.chars_eq, hrows.chars_eq]
      simp [Table.tableNodes, Table.titleNodes, nameOf, reference]
    · simp [Table.tableNodes, Table.titleNodes, isSound_ofTag, isTag_table, hheaders.allSound,
        hrows.allSound]

/-- The page spells its tree, so reading it gives the table back. -/
theorem spells_report (title : String) (table : Table) (generatedOn : String) :
    Spells (pageHtml title table generatedOn)
      (pageNodes title styles (plain "\n" ++ table.nodes ++ plain "\n") generatedOn) := by
  have hstyles : ((styleSheet styles).flatMap Piece.chars).flatMap reference =
      (styleSheet styles).flatMap Piece.chars := by
    decide +kernel
  have hline : Spells (markup "\n") (plain "\n") := Spells.markup (by decide +kernel)
  have hbody := (hline.append (spells_table table)).append hline
  have hpage := spells_page hbody hstyles title generatedOn
  simpa only [pageHtml, List.append_assoc] using hpage

end Spelling

section Reading

/-- The cell that a part of a row shows: its text, and where its link leads to. -/
def shownCell? : Node → Option Cell
  | .element source content =>
    if nameOf source = "td".toList then
      some ⟨String.ofList (textOf content), (content.filterMap target?).head?⟩
    else none
  | _ => none

def shownCells (row : List Node) : List Cell :=
  row.filterMap shownCell?

def headings (row : List Node) : List String :=
  (elements "th" row).map fun content => String.ofList (textOf content)

/-- What an issue has under each heading. Its names lead to its page. What is missing is left
empty, lists are joined with commas, and times are shown to the minute. -/
def cellsByHeading (issue : Issue) : List (String × Cell) :=
  let name (text : String) : Cell := ⟨text, issue.link⟩
  let value (text : Option String) : Cell := ⟨text.getD "", none⟩
  let list (texts : List String) : Cell := ⟨", ".intercalate texts, none⟩
  let time (time : Option Time.Timestamp) : Cell := value (time.map Time.Timestamp.minuteText)
  [ ("Id", name issue.id), ("Key", name issue.key), ("Summary", value (some issue.summary)),
    ("Type", value issue.kind), ("Status", value issue.status),
    ("Resolution", value issue.resolution), ("Priority", value issue.priority),
    ("Assignee", value issue.assignee), ("Reporter", value issue.reporter),
    ("Version", value issue.version), ("Fix Version", list issue.fixVersions),
    ("Component", list issue.components), ("Created", time issue.created),
    ("Updated", time issue.updated) ]

/-- A row shows an issue below the headings: one cell for each of them, and nothing else. -/
structure IsRowOf (headings : List String) (issue : Issue) (row : List Node) : Prop where
  shownCells_eq : (shownCells row).map some =
    headings.map fun heading => (cellsByHeading issue).lookup heading
  cellsOf_eq : cellsOf row = (shownCells row).map fun cell => .data cell.text

/-- What a page shows of issues in some columns. -/
structure IsShown (columns : List Column) (issues : List Issue) (nodes : List Node) : Prop where
  /-- If there are issues then there is one table. Its first row has the labels of the columns, and
  one row for each issue follows. -/
  table_of_some : issues ≠ [] → ∃ titles rows,
    (elementsAt ["html", "body", "table"] nodes).map (elements "tr") = [titles :: rows] ∧
    headings titles = columns.map Column.label ∧
    cellsOf titles = (headings titles).map .heading ∧
    List.Forall₂ (IsRowOf (headings titles)) issues rows
  table_of_none : issues = [] → elementsAt ["html", "body", "table"] nodes = []
  /-- The page says so if there are no issues. -/
  sentence : (elementsAt ["html", "body", "p"] nodes).map textOf =
    if issues = [] then ["No issues found.".toList] else []

theorem shownCells_append (first second : List Node) :
    shownCells (first ++ second) = shownCells first ++ shownCells second :=
  List.filterMap_append

theorem shownCells_plain (content : String) : shownCells (plain content) = [] :=
  filterMap_plain (fun _ => rfl) content

/-- A cell is shown as it is, whatever characters are in it. -/
theorem shownCell?_node (cell : Cell) : shownCell? cell.node = some cell := by
  have hname : nameOf "td".toList = "td".toList := by decide +kernel
  rw [Cell.node, Node.ofTag, shownCell?, if_pos hname, textOf_linkedNodes, targets_linkedNodes,
    String.ofList_toList, Option.head?_toList]

theorem shownCells_rowNodes (row : List Cell) : shownCells (rowNodes row) = row := by
  have hcell (cell : Cell) : shownCells (cellElement cell) = [cell] := by
    rw [cellElement, shownCells_append, shownCells_append, shownCells_plain, List.nil_append,
      List.append_nil, shownCells, List.filterMap_cons_some (shownCell?_node cell)]
    rfl
  have hcells : shownCells (row.flatMap cellElement) = row := by
    rw [shownCells, List.filterMap_flatMap]
    calc
      (row.flatMap fun cell => shownCells (cellElement cell)) = row.flatMap fun cell => [cell] :=
        List.flatMap_congr fun cell _ => hcell cell
      _ = row := List.flatMap_singleton' row
  rw [rowNodes, shownCells_append, shownCells_append, hcells, shownCells_plain, shownCells_plain,
    List.nil_append, List.append_nil]

theorem cellsOf_rowNodes (row : List Cell) :
    cellsOf (rowNodes row) = row.map fun cell => .data cell.text := by
  have hcell (cell : Cell) : cellsOf (cellElement cell) = [.data cell.text] := by
    simp [cellElement, Cell.node]
  have hcells : cellsOf (row.flatMap cellElement) = row.map fun cell => .data cell.text := by
    rw [cellsOf, List.filterMap_flatMap, List.map_eq_flatMap]
    exact List.flatMap_congr fun cell _ => hcell cell
  simp [rowNodes, hcells]

theorem headings_titleNodes (table : Table) : headings table.titleNodes = table.headers := by
  have hheader (header : String) : elements "th" (headerElement header) = [plain header] := by
    simp [headerElement, nameOf]
  simp [headings, Table.titleNodes, elements_flatMap_eq_map hheader, Function.comp_def]

theorem cellsOf_titleNodes (table : Table) :
    cellsOf table.titleNodes = table.headers.map .heading := by
  have hheader (header : String) : cellsOf (headerElement header) = [.heading header] := by
    simp [headerElement]
  have hheaders : cellsOf (table.headers.flatMap headerElement) = table.headers.map .heading := by
    rw [cellsOf, List.filterMap_flatMap, List.map_eq_flatMap]
    exact List.flatMap_congr fun header _ => hheader header
  simp [Table.titleNodes, hheaders]

theorem elements_tableNodes (table : Table) :
    elements "tr" table.tableNodes = table.titleNodes :: table.rows.map rowNodes := by
  have hrow (row : List Cell) : elements "tr" (rowElement row) = [rowNodes row] := by
    simp [rowElement, nameOf]
  have hname : nameOf "tr".toList = "tr".toList := by decide +kernel
  simp only [Table.tableNodes, elements_append, elements_plain, List.nil_append, List.append_nil,
    elements_flatMap_eq_map hrow]
  rw [elements_cons_ofTag, if_pos hname, elements_nil, List.singleton_append]

/-- A row has what the issue has in the columns of the headings. -/
theorem isRowOf_row (columns : List Column) (issue : Issue) :
    IsRowOf (columns.map Column.label) issue (rowNodes (columns.map (cell issue))) := by
  have hlabel (column : Column) :
      (cellsByHeading issue).lookup column.label = some (cell issue column) := by
    cases column <;> rfl
  constructor
  · rw [shownCells_rowNodes, List.map_map, List.map_map]
    refine List.map_congr_left fun column _ => ?_
    rw [Function.comp_apply, Function.comp_apply, hlabel]
  · rw [shownCells_rowNodes, cellsOf_rowNodes]

end Reading

/-- Read back, the page shows the headers of the columns and the cells of the issues. -/
theorem isShown_report (columns : List Column) (issues : List Issue) (title generatedOn : String) :
    IsShown columns issues
      (pageNodes title styles (plain "\n" ++ (Table.of columns issues).nodes ++ plain "\n")
        generatedOn) := by
  have hempty : (Table.of columns issues).rows.isEmpty = true ↔ issues = [] := by
    rw [Table.of, List.isEmpty_map, List.isEmpty_iff]
  have hbody (name : String) (hheading : name ≠ "h1") (hfooter : name ≠ "footer") :=
    elementsAt_page hheading hfooter [] title styles
      (plain "\n" ++ (Table.of columns issues).nodes ++ plain "\n") generatedOn
  have htable := hbody "table" (by decide) (by decide)
  have hsentence := hbody "p" (by decide) (by decide)
  refine ⟨fun hsome => ?_, fun hnone => ?_, ?_⟩
  · have hfilled : ¬(Table.of columns issues).rows.isEmpty = true := mt hempty.mp hsome
    refine ⟨(Table.of columns issues).titleNodes, (Table.of columns issues).rows.map rowNodes,
      ?_, ?_, ?_, ?_⟩
    · rw [htable, Table.nodes, if_neg hfilled]
      simp [elementsAt, nameOf, elements_tableNodes]
    · exact headings_titleNodes _
    · rw [headings_titleNodes, cellsOf_titleNodes]
    · rw [headings_titleNodes, List.forall₂_map_right_iff, Table.of, List.forall₂_map_right_iff,
        List.forall₂_same]
      exact fun issue _ => isRowOf_row columns issue
  · rw [htable, Table.nodes, if_pos (hempty.mpr hnone)]
    simp [elementsAt, nameOf]
  · by_cases hnone : issues = []
    · rw [hsentence, Table.nodes, if_pos (hempty.mpr hnone), if_pos hnone]
      simp [elementsAt, nameOf]
    · rw [hsentence, Table.nodes, if_neg (mt hempty.mp hnone), if_neg hnone]
      simp [elementsAt, nameOf]

/-- The columns that are chosen are those that the items of a list name, and the page has a table
with these columns and a row for each issue. -/
theorem report_isAligned (tracker : Origin) (names : String) :
    Column.IsChoice tracker names (Column.select tracker names) ∧
    ∀ (columns : List Column) (issues : List Issue) (title generatedOn : String),
      ∃ nodes, read? (report title columns issues generatedOn) = some nodes ∧
        IsShown columns issues nodes :=
  ⟨Column.isChoice_select tracker names, fun columns issues title generatedOn =>
    ⟨_, (spells_report title (.of columns issues) generatedOn).read?_render,
      isShown_report columns issues title generatedOn⟩⟩

def datedIssue : Issue :=
  { Issue.ofKey "EX-1" "Sort <b>." with
    link := some "https://jira.example.org/browse/EX-1"
    created := some ⟨1654079430, 0⟩
    fixVersions := ["1.0", "1.1"] }

/-- Items in any letter case, one of them unknown and one repeated, and the cells of an issue. -/
theorem report_isAligned_sample :
    (Column.select .jira "created, KEY,, Owner, fix version, Type, key").outcome =
        .ok [.created, .key, .fixVersion, .type, .key] ∧
      (Column.select .jira "created, KEY,, Owner, fix version, Type, key").entries =
        [⟨.warning, "Unknown column in the issues report: `Owner`"⟩] ∧
      ∃ nodes titles row,
        read? (report "Issues" [.created, .key, .fixVersion, .type] [datedIssue] "now") =
          some nodes ∧
        (elementsAt ["html", "body", "table"] nodes).map (elements "tr") = [[titles, row]] ∧
        headings titles = ["Created", "Key", "Fix Version", "Type"] ∧
        shownCells row =
          [ ⟨"2022-06-01 10:30", none⟩, ⟨"EX-1", some "https://jira.example.org/browse/EX-1"⟩,
            ⟨"1.0, 1.1", none⟩, ⟨"", none⟩ ] := by
  obtain ⟨nodes, hread, hshown⟩ := (report_isAligned .jira "").2
    [.created, .key, .fixVersion, .type] [datedIssue] "Issues" "now"
  obtain ⟨titles, rows, htable, htitles, _, hrows⟩ := hshown.table_of_some (List.cons_ne_nil _ _)
  rw [List.forall₂_cons_left_iff] at hrows
  obtain ⟨row, others, hrow, hothers, rfl⟩ := hrows
  obtain rfl := List.forall₂_nil_left_iff.mp hothers
  refine ⟨by decide +kernel, by decide +kernel, nodes, titles, row, hread, htable, htitles, ?_⟩
  have hcells := hrow.shownCells_eq
  rw [htitles] at hcells
  have hsome : Function.Injective (some : Cell → Option Cell) := fun _ _ => Option.some.inj
  exact List.map_injective_iff.mpr hsome (hcells.trans (by decide +kernel))

end IssuesPage

end ReleaseNotes
