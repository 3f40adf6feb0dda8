import Mathlib.Data.List.Basic
import ReleaseNotes.Report.ChangesPage
import ReleaseNotes.Report.IssuesPage

/-!
Texts cannot add markup to a page. All characters that markup is made of come from the layout, and
their order depends on the shape of the content alone: how many items each list has, and which
parts and links there are.
-/

namespace ReleaseNotes

namespace Html

def isMark (c : Char) : Bool :=
  c == '<' || c == '>' || c == '"' || c == '\''

def marks (page : String) : List Char :=
  page.toList.filter isMark

def Piece.marks : Piece → List Char
  | .markup source => source.toList.filter isMark
  | .text _ => []

def layoutMarks (html : Html) : List Char :=
  html.flatMap Piece.marks

section Characters

/-- A reference for a character has none of the marks that tags are made of. -/
theorem filter_reference (c : Char) : (reference c).filter isMark = [] := by
  by_cases hless : c = '<'
  · subst hless
    rfl
  by_cases hgreater : c = '>'
  · subst hgreater
    rfl
  by_cases hampersand : c = '&'
  · subst hampersand
    rfl
  by_cases hquote : c = '"'
  · subst hquote
    rfl
  by_cases hapostrophe : c = '\''
  · subst hapostrophe
    rfl
  have hmark : isMark c = false := by simp [isMark, hless, hgreater, hquote, hapostrophe]
  simp [reference, hless, hgreater, hampersand, hquote, hapostrophe, hmark]

theorem filter_chars (piece : Piece) : piece.chars.filter isMark = piece.marks := by
  cases piece with
  | markup source => rfl
  | text content =>
    have hnone : ∀ c ∈ content.toList, (reference c).filter isMark = [] :=
      fun c _ => filter_reference c
    rw [Piece.chars, List.filter_flatMap]
    exact List.flatMap_eq_nil_iff.mpr hnone

/-- The marks of a page are those of its layout. -/
theorem marks_render (html : Html) : marks html.render = layoutMarks html := by
  rw [marks, render, String.toList_ofList, List.filter_flatMap, layoutMarks]
  exact List.flatMap_congr fun piece _ => filter_chars piece

end Characters

section Layout

variable {α σ : Type}

@[simp] theorem layoutMarks_append (first second : Html) :
    layoutMarks (first ++ second) = layoutMarks first ++ layoutMarks second :=
  List.flatMap_append

@[simp] theorem layoutMarks_escaped (content : String) : layoutMarks (escaped content) = [] := rfl

@[simp] theorem layoutMarks_number (n : Nat) : layoutMarks (number n) = [] := rfl

theorem layoutMarks_flatMap (items : List α) (layout : α → Html) :
    layoutMarks (items.flatMap layout) = items.flatMap fun item => layoutMarks (layout item) :=
  List.flatMap_assoc

/-- Lists of one shape give the same if two items of one shape do. -/
theorem flatMap_eq_of_map_eq {γ : Type} {shape : α → σ} {give : α → List γ}
    (hitem : ∀ a b, shape a = shape b → give a = give b) {first second : List α}
    (h : first.map shape = second.map shape) : first.flatMap give = second.flatMap give := by
  induction first generalizing second with
  | nil =>
    have hnil : second = [] := List.map_eq_nil_iff.mp h.symm
    rw [hnil]
  | cons a first ih =>
    cases second with
    | nil => contradiction
    | cons b second =>
      obtain ⟨hhead, htail⟩ := List.cons.inj h
      rw [List.flatMap_cons, List.flatMap_cons, hitem a b hhead, ih htail]

/-- Lists of one shape are laid out with the same marks if two items of one shape are. -/
theorem layoutMarks_flatMap_eq {shape : α → σ} {layout : α → Html}
    (hitem : ∀ a b, shape a = shape b → layoutMarks (layout a) = layoutMarks (layout b))
    {first second : List α} (h : first.map shape = second.map shape) :
    layoutMarks (first.flatMap layout) = layoutMarks (second.flatMap layout) := by
  rw [layoutMarks_flatMap, layoutMarks_flatMap]
  exact flatMap_eq_of_map_eq hitem h

/-- Whether there is a link matters to the marks, but not where it leads. -/
theorem layoutMarks_linked_eq {first second : Option String} (content other : String)
    (h : first.isSome = second.isSome) :
    layoutMarks (linked first content) = layoutMarks (linked second other) := by
  cases first with
  | none =>
    have hnone : second = none := by simpa using h.symm
    rw [hnone]
    rfl
  | some address =>
    obtain ⟨address', hsome⟩ := Option.isSome_iff_exists.mp h.symm
    rw [hsome]
    rfl

theorem layoutMarks_mailLinked_eq {first second : Option String} (name other : String)
    (h : first.isSome = second.isSome) :
    layoutMarks (mailLinked first name) = layoutMarks (mailLinked second other) := by
  cases first with
  | none =>
    have hnone : second = none := by simpa using h.symm
    rw [hnone]
    rfl
  | some address =>
    obtain ⟨address', hsome⟩ := Option.isSome_iff_exists.mp h.symm
    rw [hsome]
    rfl

theorem layoutMarks_head_eq (title other : String) (styles : List (String × String)) :
    layoutMarks (head title styles) = layoutMarks (head other styles) := by
  simp [head]

theorem layoutMarks_foot_eq (time other : String) :
    layoutMarks (foot time) = layoutMarks (foot other) := by
  simp [foot]

end Layout

end Html

namespace ChangesPage

open Html

structure RowShape where
  issues : List Bool
  contributors : List Bool
  developer : Bool
deriving DecidableEq

def Row.shape (row : Row) : RowShape where
  issues := row.issues.map (·.link.isSome)
  contributors := row.contributors.map (·.email.isSome)
  developer := row.developerLink.isSome

structure SectionShape where
  rows : List RowShape
  groups : List (List RowShape)
deriving DecidableEq

def Group.shape (group : Group) : List RowShape :=
  group.rows.map Row.shape

def Section.shape (part : Section) : SectionShape where
  rows := part.rows.map Row.shape
  groups := part.groups.map Group.shape

/-- What is left of the content of a page without its texts. -/
structure Shape where
  author : Bool
  authorEmail : Bool
  sections : List SectionShape
  showActionDate : Bool
deriving DecidableEq

def Content.shape (content : Content) : Shape where
  author := content.author.isSome
  authorEmail := content.authorEmail.isSome
  sections := content.sections.map Section.shape
  showActionDate := content.showActionDate

section Marks

theorem layoutMarks_commaLines (items : List Html) :
    layoutMarks (commaLines items) = items.flatMap layoutMarks := by
  have hline : layoutMarks (markup "\n      ") = [] := by decide +kernel
  have hcomma : layoutMarks (markup ", \n      ") = [] := by decide +kernel
  induction items with
  | nil => rfl
  | cons item items ih =>
    cases items with
    | nil => simp [commaLines, hline]
    | cons next items =>
      have hlines : commaLines (item :: next :: items) =
          markup "\n      " ++ item ++ markup ", \n      " ++ commaLines (next :: items) := rfl
      rw [List.flatMap_cons, ← ih, hlines]
      simp [hline, hcomma]

/-- A list after a few words has the marks of its items. -/
theorem layoutMarks_listing {words : String} (items : List Html)
    (hwords : layoutMarks (markup ("\n      " ++ words ++ "\n      ")) = []) :
    layoutMarks (listing words items) = items.flatMap layoutMarks := by
  have hend : layoutMarks (markup ".\n      ") = [] := by decide +kernel
  cases items with
  | nil => rfl
  | cons item items =>
    have hlist : listing words (item :: items) =
        markup ("\n      " ++ words ++ "\n      ") ++ commaLines (item :: items) ++
          markup ".\n      " := rfl
    rw [hlist, layoutMarks_append, layoutMarks_append, hwords, hend, layoutMarks_commaLines,
      List.nil_append, List.append_nil]

theorem layoutMarks_row_eq (showDate : Bool) (first second : Row)
    (h : first.shape = second.shape) :
    layoutMarks (first.html showDate) = layoutMarks (second.html showDate) := by
  obtain ⟨hissues, hcontributors, hdeveloper⟩ := RowShape.mk.inj h
  have hfixes : layoutMarks (listing "Fixes" (first.issues.map fun issue =>
        linked issue.link issue.id)) =
      layoutMarks (listing "Fixes" (second.issues.map fun issue =>
        linked issue.link issue.id)) := by
    have hwords : layoutMarks (markup ("\n      " ++ "Fixes" ++ "\n      ")) = [] := by
      decide +kernel
    rw [layoutMarks_listing _ hwords, layoutMarks_listing _ hwords, List.flatMap_map,
      List.flatMap_map]
    exact flatMap_eq_of_map_eq (fun a b => layoutMarks_linked_eq a.id b.id) hissues
  have hthanks : layoutMarks (listing "Thanks to" (first.contributors.map fun person =>
        mailLinked person.email person.name)) =
      layoutMarks (listing "Thanks to" (second.contributors.map fun person =>
        mailLinked person.email person.name)) := by
    have hwords : layoutMarks (markup ("\n      " ++ "Thanks to" ++ "\n      ")) = [] := by
      decide +kernel
    rw [layoutMarks_listing _ hwords, layoutMarks_listing _ hwords, List.flatMap_map,
      List.flatMap_map]
    exact flatMap_eq_of_map_eq (fun a b => layoutMarks_mailLinked_eq a.name b.name) hcontributors
  have hlink : layoutMarks (linked first.developerLink first.developer) =
      layoutMarks (linked second.developerLink second.developer) :=
    layoutMarks_linked_eq _ _ hdeveloper
  cases showDate with
  | false => simp [Row.html, onlyIf, hfixes, hthanks, hlink]
  | true => simp [Row.html, onlyIf, hfixes, hthanks, hlink]

theorem layoutMarks_rows_eq (showDate : Bool) {first second : List Row}
    (h : first.map Row.shape = second.map Row.shape) :
    layoutMarks (rowsHtml showDate first) = layoutMarks (rowsHtml showDate second) := by
  refine layoutMarks_flatMap_eq (fun a b hrow => ?_) h
  simp [layoutMarks_row_eq showDate a b hrow]

theorem layoutMarks_group_eq (showDate : Bool) (first second : Group)
    (h : first.shape = second.shape) :
    layoutMarks (first.html showDate) = layoutMarks (second.html showDate) := by
  have hrows : layoutMarks (rowsHtml showDate first.rows) =
      layoutMarks (rowsHtml showDate second.rows) := layoutMarks_rows_eq showDate h
  simp [Group.html, hrows]

theorem layoutMarks_history_eq (first second : Section) :
    layoutMarks first.historyHtml = layoutMarks second.historyHtml := by
  simp [Section.historyHtml]

theorem layoutMarks_table_eq (showDate : Bool) {first second : Section}
    (h : first.shape = second.shape) :
    layoutMarks (first.tableHtml showDate) = layoutMarks (second.tableHtml showDate) := by
  obtain ⟨hrows, hgroups⟩ := SectionShape.mk.inj h
  have hrowMarks := layoutMarks_rows_eq showDate hrows
  have hgroupMarks := layoutMarks_flatMap_eq (layoutMarks_group_eq showDate) hgroups
  simp [Section.tableHtml, hrowMarks, hgroupMarks]

theorem isEmpty_of_shape_eq {first second : Section} (h : first.shape = second.shape) :
    first.isEmpty = second.isEmpty := by
  obtain ⟨hrows, hgroups⟩ := SectionShape.mk.inj h
  have hrowCount := congrArg List.isEmpty hrows
  have hgroupCount := congrArg List.isEmpty hgroups
  rw [List.isEmpty_map, List.isEmpty_map] at hrowCount hgroupCount
  rw [Section.isEmpty, Section.isEmpty, hrowCount, hgroupCount]

theorem layoutMarks_section_eq (showDate : Bool) (first second : Section)
    (h : first.shape = second.shape) :
    layoutMarks (first.html showDate) = layoutMarks (second.html showDate) := by
  have hdate (part : Section) :
      layoutMarks (onlyIf (part.date != "") (markup " &ndash; " ++ escaped part.date)) = [] := by
    have hdash : layoutMarks (markup " &ndash; ") = [] := by decide +kernel
    by_cases hempty : part.date = ""
    · simp [onlyIf, hempty, layoutMarks]
    · simp [onlyIf, hempty, hdash]
  have htable := layoutMarks_table_eq showDate h
  have hempty := isEmpty_of_shape_eq h
  by_cases hsecond : second.isEmpty = true
  · have hfirst : first.isEmpty = true := hempty.trans hsecond
    simp [Section.html, hdate, hfirst, hsecond]
  · have hfirst : ¬first.isEmpty = true := by rwa [hempty]
    simp [Section.html, hdate, hfirst, hsecond, htable]

theorem layoutMarks_author_eq {first second : Content} (h : first.shape = second.shape) :
    layoutMarks first.authorHtml = layoutMarks second.authorHtml := by
  obtain ⟨hauthor, hemail, _, _⟩ := Shape.mk.inj h
  cases hfirst : first.author with
  | none =>
    have hsecond : second.author = none := by simpa [hfirst] using hauthor.symm
    rw [Content.authorHtml, Content.authorHtml, hfirst, hsecond]
  | some author =>
    obtain ⟨author', hsecond⟩ : ∃ author', second.author = some author' := by
      simpa [hfirst, Option.isSome_iff_exists] using hauthor.symm
    have hmail := layoutMarks_mailLinked_eq author author' hemail
    rw [Content.authorHtml, Content.authorHtml, hfirst, hsecond]
    simp [hmail]

/-- Pages of the same shape have the same marks. -/
theorem layoutMarks_content_eq {first second : Content} (h : first.shape = second.shape)
    (time other : String) :
    layoutMarks (first.html time) = layoutMarks (second.html other) := by
  obtain ⟨_, _, hsections, hdate⟩ := Shape.mk.inj h
  have hauthor := layoutMarks_author_eq h
  have hhead := layoutMarks_head_eq first.title second.title styles
  have hhistory := layoutMarks_flatMap_eq (fun a b _ => layoutMarks_history_eq a b) hsections
  have hbody := layoutMarks_flatMap_eq (layoutMarks_section_eq first.showActionDate) hsections
  have hshow : first.showActionDate = second.showActionDate := hdate
  rw [hshow] at hbody
  simp only [Content.html, layoutMarks_append, hhead, hauthor, hhistory, hbody, hshow,
    layoutMarks_foot_eq time other]

end Marks

end ChangesPage

namespace IssuesPage

open Html

/-- What is left of a table without its texts: the number of columns, and which cells of which rows
have links. -/
structure TableShape where
  columns : Nat
  rows : List (List Bool)
deriving DecidableEq

def Table.shape (table : Table) : TableShape where
  columns := table.headers.length
  rows := table.rows.map fun row => row.map (·.link.isSome)

section Marks

theorem layoutMarks_cell_eq (first second : Cell) (h : first.link.isSome = second.link.isSome) :
    layoutMarks first.html = layoutMarks second.html := by
  have hlink := layoutMarks_linked_eq first.text second.text h
  simp [Cell.html, hlink]

theorem layoutMarks_row_eq (first second : List Cell)
    (h : first.map (·.link.isSome) = second.map (·.link.isSome)) :
    layoutMarks (rowHtml first) = layoutMarks (rowHtml second) := by
  have hcells := layoutMarks_flatMap_eq layoutMarks_cell_eq h
  simp [rowHtml, hcells]

theorem layoutMarks_table_eq {first second : Table} (h : first.shape = second.shape) :
    layoutMarks first.html = layoutMarks second.html := by
  obtain ⟨hcolumns, hrows⟩ := TableShape.mk.inj h
  have hheaders : layoutMarks (first.headers.flatMap headerHtml) =
      layoutMarks (second.headers.flatMap headerHtml) := by
    have hcount : first.headers.map (fun _ => ()) = second.headers.map fun _ => () := by
      rw [List.map_const', List.map_const', hcolumns]
    exact layoutMarks_flatMap_eq (fun a b _ => by simp [headerHtml]) hcount
  have hbody := layoutMarks_flatMap_eq layoutMarks_row_eq hrows
  have hempty : first.rows.isEmpty = second.rows.isEmpty := by
    have hcount := congrArg List.isEmpty hrows
    rwa [List.isEmpty_map, List.isEmpty_map] at hcount
  by_cases hsecond : second.rows.isEmpty = true
  · have hfirst : first.rows.isEmpty = true := hempty.trans hsecond
    rw [Table.html, Table.html, if_pos hfirst, if_pos hsecond]
  · have hfirst : ¬first.rows.isEmpty = true := by rwa [hempty]
    rw [Table.html, Table.html, if_neg hfirst, if_neg hsecond]
    simp [hheaders, hbody]

theorem marks_report_eq {columns columns' : List Column} {issues issues' : List Issue}
    (h : (Table.of columns issues).shape = (Table.of columns' issues').shape)
    (title title' time time' : String) :
    marks (report title columns issues time) = marks (report title' columns' issues' time') := by
  have htable := layoutMarks_table_eq h
  have hhead := layoutMarks_head_eq title title' styles
  rw [report, report, marks_render, marks_render]
  simp only [pageHtml, layoutMarks_append, hhead, htable, layoutMarks_foot_eq time time']

end Marks

def Table.linkedCells (table : Table) : Nat :=
  table.rows.flatten.countP (·.link.isSome)

def sampleIssue : Issue :=
  { Issue.ofKey "EX-1" "Sort." with link := some "https://jira.example.org/browse/EX-1" }

/-- The number of links is not enough: it matters which cells have them. -/
theorem marks_report_ne : ¬∀ (title title' : String) (columns columns' : List Column)
    (issues issues' : List Issue) (time time' : String),
    columns.length = columns'.length → issues.length = issues'.length →
      (Table.of columns issues).linkedCells = (Table.of columns' issues').linkedCells →
      marks (report title columns issues time) = marks (report title' columns' issues' time') := by
  intro h
  have hmarks := h "Issues" "Issues" [.key, .summary] [.summary, .key] [sampleIssue] [sampleIssue]
    "" "" rfl rfl (by decide +kernel)
  rw [report, report, marks_render, marks_render, pageHtml, pageHtml] at hmarks
  simp only [layoutMarks_append, List.append_cancel_left_eq, List.append_cancel_right_eq] at hmarks
  revert hmarks
  decide +kernel

end IssuesPage

namespace Html

open ChangesPage in
/-- Pages of one shape have the same marks, whatever their texts say. -/
theorem marks_pages_eq :
    (∀ (project project' : Metadata) (document document' : ChangesDocument)
      (releases releases' : List Release) (showActionDate showActionDate' : Bool)
      (time time' : String),
      (Content.of project document releases showActionDate).shape =
          (Content.of project' document' releases' showActionDate').shape →
        ∃ page page',
          (ChangesPage.report project document releases showActionDate time).outcome = .ok page ∧
          (ChangesPage.report project' document' releases' showActionDate' time').outcome =
            .ok page' ∧
          marks page = marks page') ∧
    ∀ (title title' : String) (columns columns' : List Column) (issues issues' : List Issue)
      (time time' : String),
      (IssuesPage.Table.of columns issues).shape = (IssuesPage.Table.of columns' issues').shape →
        marks (IssuesPage.report title columns issues time) =
          marks (IssuesPage.report title' columns' issues' time') := by
  constructor
  · intro project project' document document' releases releases' showDate showDate' time time' h
    refine ⟨_, _, rfl, rfl, ?_⟩
    rw [marks_render, marks_render]
    exact layoutMarks_content_eq h time time'
  · intro title title' columns columns' issues issues' time time' h
    exact IssuesPage.marks_report_eq h title title' time time'

def sampleRelease (text : String) : Release where
  version := text
  date := some text
  description := some text
  actions :=
    [{ kind := text
       text := text
       issue := some text
       fixedIssues := [text, text ++ text]
       developer := some text
       contributors := [⟨text, some text⟩, ⟨text, none⟩]
       date := some text
       system := some "JIRA" }]
  components := [⟨text, none, []⟩]

def sampleProject (text : String) : Metadata :=
  { Metadata.ofName text text with
    team := some text
    issueManagement := some ⟨none, some "https://jira.example.org/browse/EX"⟩ }

theorem marks_pages_eq_sample :
    ∃ page page',
      (ChangesPage.report (sampleProject "a") .empty [sampleRelease "a"] true "now").outcome =
        .ok page ∧
      (ChangesPage.report (sampleProject "</td>'\"") .empty [sampleRelease "</td>'\""] true
        "then").outcome = .ok page' ∧
      marks page = marks page' ∧
      marks (IssuesPage.report "a" [.key] [IssuesPage.sampleIssue] "now") =
        marks (IssuesPage.report "<b>" [.id]
          [{ IssuesPage.sampleIssue with id := "<p title='1'>\"" }] "then") := by
  obtain ⟨page, page', hpage, hpage', hmarks⟩ :=
    marks_pages_eq.1 (sampleProject "a") (sampleProject "</td>'\"") .empty .empty
      [sampleRelease "a"] [sampleRelease "</td>'\""] true true "now" "then" (by decide +kernel)
  refine ⟨page, page', hpage, hpage', hmarks, ?_⟩
  exact marks_pages_eq.2 "a" "<b>" [.key] [.id] [IssuesPage.sampleIssue]
    [{ IssuesPage.sampleIssue with id := "<p title='1'>\"" }] "now" "then" (by decide +kernel)

end Html

end ReleaseNotes
