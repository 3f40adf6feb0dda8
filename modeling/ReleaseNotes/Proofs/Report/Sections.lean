import Mathlib.Data.List.Forall2
import ReleaseNotes.Proofs.Report.ChangesTree

/-!
What the page with the changes shows. Read as a tree, it has a row in the history and a section for
each release, in order. The table in a section has one row for each action, and the numbers in the
history are those of the rows in the section.
-/

namespace ReleaseNotes.ChangesPage

open Text Html

def commaText : List String → String
  | [] => ""
  | [item] => "\n      " ++ item ++ "\n      "
  | item :: items => "\n      " ++ item ++ ", \n      " ++ commaText items

def listText (words : String) (items : List String) : String :=
  if !items.isEmpty then "\n      " ++ words ++ "\n      " ++ commaText items ++ ".\n      " else ""

def changesText (action : Action) : String :=
  "\n      " ++ (if action.allIssues.isEmpty then action.text else sentence action.text) ++
    "\n      " ++ listText "Fixes" action.allIssues ++ "\n      " ++
    listText "Thanks to" (action.contributors.map Contributor.name) ++ "\n    "

def dateCell (showDate : Bool) (cell : CellText) : List CellText :=
  if showDate then [cell] else []

def actionRow (showDate : Bool) (action : Action) : List CellText :=
  [.data action.kind, .data (changesText action), .data (action.developer.getD "")] ++
    dateCell showDate (.data (action.date.getD ""))

def componentRow (showDate : Bool) (component : Component) : List CellText :=
  [.heading "", .heading component.name, .heading ""] ++ dateCell showDate (.heading "")

def titleRow (showDate : Bool) : List CellText :=
  [.heading "Type", .heading "Changes", .heading "By"] ++ dateCell showDate (.heading "Date")

def changesRows (showDate : Bool) (release : Release) : List (List CellText) :=
  release.actions.map (actionRow showDate) ++
    (release.components.filter fun component => !component.actions.isEmpty).flatMap fun component =>
      componentRow showDate component :: component.actions.map (actionRow showDate)

def typeCount (rows : List (List CellText)) (kind : String) : Nat :=
  rows.countP fun row => row.head? == some (.data kind)

def historyTitleRow : List CellText :=
  ["Version", "Date", "Description", "Added", "Fixed", "Updated", "Removed"].map .heading

def shownRows (part : List Node) : List (List CellText) :=
  (elements "table" part).flatMap fun table => (rowsOf table).tail

/-- A release is shown by a row of the history and a section. -/
structure IsShown (showDate : Bool) (release : Release) (history : List CellText)
    (part : List Node) : Prop where
  /-- The section has a table of all actions, unless there are none. -/
  tables_eq : (elements "table" part).map rowsOf =
    if release.actionCount = 0 then [] else [titleRow showDate :: changesRows showDate release]
  /-- The section says so if there are no actions. -/
  paragraphs_eq : (elements "p" part).map textOf =
    if release.actionCount = 0 then ["No changes in this release.".toList] else []
  /-- The numbers in the history are those of the rows in the section. -/
  history_eq : history =
    [.data release.version, .data (release.date.getD ""), .data (release.description.getD ""),
      .data (toString (typeCount (shownRows part) "add")),
      .data (toString (typeCount (shownRows part) "fix")),
      .data (toString (typeCount (shownRows part) "update")),
      .data (toString (typeCount (shownRows part) "remove"))]

theorem textOf_commaNodes {α : Type} {nodes : α → List Node} {text : α → String}
    (h : ∀ item, textOf (nodes item) = (text item).toList) (items : List α) :
    textOf (commaNodes (items.map nodes)) = (commaText (items.map text)).toList := by
  induction items with
  | nil => rfl
  | cons item items ih =>
    cases items with
    | nil => simp [commaNodes, commaText, h]
    | cons next items =>
      have hnodes : commaNodes ((item :: next :: items).map nodes) =
          plain "\n      " ++ nodes item ++ plain ", \n      " ++
            commaNodes ((next :: items).map nodes) := rfl
      have htext : commaText ((item :: next :: items).map text) =
          "\n      " ++ text item ++ ", \n      " ++ commaText ((next :: items).map text) := rfl
      rw [hnodes, htext, textOf_append, ih]
      simp [h]

theorem textOf_listNodes {α : Type} {nodes : α → List Node} {text : α → String} (words : String)
    (h : ∀ item, textOf (nodes item) = (text item).toList) (items : List α) :
    textOf (listNodes words (items.map nodes)) = (listText words (items.map text)).toList := by
  have hitems := textOf_commaNodes h items
  have hempty : (items.map nodes).isEmpty = (items.map text).isEmpty := by
    rw [List.isEmpty_map, List.isEmpty_map]
  rw [listNodes, listText, hempty]
  split
  · simp [hitems]
  · rfl

theorem cellsOf_cellNodes (cells : List Node) : cellsOf (cellNodes cells) = cellsOf cells := by
  induction cells with
  | nil => rfl
  | cons cell cells ih =>
    have hcells : cellNodes (cell :: cells) = plain "\n    " ++ [cell] ++ cellNodes cells := rfl
    rw [hcells, cellsOf_append, cellsOf_append, cellsOf_plain, ih, List.nil_append,
      ← cellsOf_append, List.singleton_append]

theorem cellsOf_rowEnd (showDate : Bool) (cell : Node) :
    cellsOf (rowEnd showDate cell) = if showDate then cellsOf [cell] else [] := by
  rw [rowEnd, cellsOf_append, cellsOf_append, cellsOf_plain, cellsOf_plain, List.nil_append,
    List.append_nil, apply_ite cellsOf]
  rfl

theorem cellsOf_row (showDate : Bool) (row : Row) :
    cellsOf (row.nodes showDate) =
      [.data row.kind, .data (String.ofList (textOf row.changesNodes)), .data row.developer] ++
        dateCell showDate (.data row.date) := by
  simp [Row.nodes, cellsOf_cellNodes, cellsOf_rowEnd, dateCell]

theorem textOf_changesNodes (row : Row) :
    textOf row.changesNodes =
      ("\n      " ++ row.text ++ "\n      " ++ listText "Fixes" (row.issues.map LinkedIssue.id) ++
        "\n      " ++ listText "Thanks to" (row.contributors.map Contributor.name) ++
        "\n    ").toList := by
  have hfixes := textOf_listNodes "Fixes"
    (fun issue : LinkedIssue => textOf_linkedNodes "a href=\"" issue.id issue.link) row.issues
  have hthanks := textOf_listNodes "Thanks to"
    (fun person : Contributor => textOf_linkedNodes "a href=\"mailto:" person.name person.email)
    row.contributors
  simp only [Row.changesNodes, textOf_append, textOf_plain, hfixes, hthanks, String.toList_append]

variable (linker : Linker) (team : Option String)

/-- The row of an action does not depend on where its links lead to. -/
theorem cellsOf_ofAction (showDate : Bool) (action : Action) :
    cellsOf ((Row.ofAction linker team action).nodes showDate) = actionRow showDate action := by
  have hissues :
      (Row.ofAction linker team action).issues.map LinkedIssue.id = action.allIssues := by
    rw [Row.ofAction, List.map_map]
    exact List.map_id _
  have htext : (Row.ofAction linker team action).text =
      if action.allIssues.isEmpty then action.text else sentence action.text := by
    rw [Row.ofAction, List.isEmpty_map]
  have hchanges : String.ofList (textOf (Row.ofAction linker team action).changesNodes) =
      changesText action := by
    rw [textOf_changesNodes, hissues, htext, String.ofList_toList]
    rfl
  rw [cellsOf_row, hchanges]
  rfl

theorem cells_rowsNodes (showDate : Bool) (actions : List Action) :
    (elements "tr" (rowsNodes showDate (actions.map (Row.ofAction linker team)))).map cellsOf =
      actions.map (actionRow showDate) := by
  have hrow (row : Row) : elements "tr" (row.element showDate) = [row.nodes showDate] := by
    simp [Row.element, nameOf]
  rw [rowsNodes, elements_flatMap_eq_map hrow, List.map_map, List.map_map]
  exact List.map_congr_left fun action _ => cellsOf_ofAction linker team showDate action

def groupOf (component : Component) : Group :=
  ⟨component.name, component.actions.map (Row.ofAction linker team)⟩

/-- A component has a row with its name above the rows of its actions. -/
theorem cells_groupNodes (showDate : Bool) (component : Component) :
    (elements "tr" ((groupOf linker team component).nodes showDate)).map cellsOf =
      componentRow showDate component :: component.actions.map (actionRow showDate) := by
  have hrows := cells_rowsNodes linker team showDate component.actions
  have hheading : cellsOf ((groupOf linker team component).headingNodes showDate) =
      componentRow showDate component := by
    simp [Group.headingNodes, componentRow, cellsOf_cellNodes, cellsOf_rowEnd, dateCell, groupOf]
  have hname : nameOf "tr class=\"component\"".toList = "tr".toList := by decide +kernel
  simp only [Group.nodes, elements_append, elements_plain, List.nil_append, List.append_nil,
    List.map_append, groupOf, hrows]
  rw [elements_cons_ofTag, if_pos hname, elements_nil, List.map_singleton]
  exact congrArg (· :: _) hheading

/-- The rows of the table in a section. -/
theorem rowsOf_tableNodes (showDate : Bool) (release : Release) :
    rowsOf ((Section.ofRelease linker team release).tableNodes showDate) =
      titleRow showDate :: changesRows showDate release := by
  have hrows := cells_rowsNodes linker team showDate release.actions
  have hgroups (components : List Component) :
      (elements "tr" ((components.map (groupOf linker team)).flatMap
        (Group.nodes showDate))).map cellsOf =
        components.flatMap fun component =>
          componentRow showDate component :: component.actions.map (actionRow showDate) := by
    rw [List.flatMap_map, elements_flatMap, List.map_flatMap]
    exact List.flatMap_congr fun component _ => cells_groupNodes linker team showDate component
  have htitles : cellsOf (titleNodes showDate) = titleRow showDate := by
    simp [titleNodes, titleRow, cellsOf_cellNodes, cellsOf_rowEnd, dateCell]
  have hname : nameOf "tr".toList = "tr".toList := by decide +kernel
  have hparts : (Section.ofRelease linker team release).groups =
      (release.components.filter fun component => !component.actions.isEmpty).map
        (groupOf linker team) := rfl
  have hown : (Section.ofRelease linker team release).rows =
      release.actions.map (Row.ofAction linker team) := rfl
  simp only [rowsOf, Section.tableNodes, elements_append, elements_plain, List.nil_append,
    List.append_nil, List.map_append, hown, hrows, hparts, hgroups, changesRows]
  rw [elements_cons_ofTag, if_pos hname, elements_nil, List.map_singleton, htitles]
  rfl

theorem typeCount_append (first second : List (List CellText)) (kind : String) :
    typeCount (first ++ second) kind = typeCount first kind + typeCount second kind :=
  List.countP_append

/-- Counting the rows of a kind counts the actions of the kind. -/
theorem typeCount_actionRows (showDate : Bool) (actions : List Action) (kind : String) :
    typeCount (actions.map (actionRow showDate)) kind = actions.countP (·.kind == kind) := by
  rw [typeCount, List.countP_map]
  apply List.countP_congr
  intro action _
  have hhead : (actionRow showDate action).head? = some (.data action.kind) := rfl
  simp [hhead]

theorem typeCount_componentRow (showDate : Bool) (component : Component)
    (rows : List (List CellText)) (kind : String) :
    typeCount (componentRow showDate component :: rows) kind = typeCount rows kind := by
  apply List.countP_cons_of_neg
  have hhead : (componentRow showDate component).head? = some (.heading "") := rfl
  simp [hhead]

/-- The rows of a release have the types of its actions. -/
theorem typeCount_changesRows (showDate : Bool) (release : Release) (kind : String) :
    typeCount (changesRows showDate release) kind = countOf kind release := by
  have hgroups (components : List Component) :
      typeCount
        ((components.filter fun component => !component.actions.isEmpty).flatMap fun component =>
          componentRow showDate component :: component.actions.map (actionRow showDate)) kind =
        (components.flatMap Component.actions).countP (·.kind == kind) := by
    induction components with
    | nil => rfl
    | cons component components ih =>
      rw [List.flatMap_cons, List.countP_append, ← ih]
      by_cases hempty : component.actions.isEmpty = true
      · have hnone : component.actions = [] := List.isEmpty_iff.mp hempty
        rw [List.filter_cons_of_neg (by simp [hempty]), hnone, List.countP_nil, Nat.zero_add]
      · rw [List.filter_cons_of_pos (by simpa using hempty), List.flatMap_cons, typeCount_append,
          typeCount_componentRow, typeCount_actionRows]
  rw [changesRows, typeCount_append, typeCount_actionRows, hgroups, countOf, Release.allActions,
    List.countP_append]

theorem changesRows_eq_nil {release : Release} (h : release.actionCount = 0) (showDate : Bool) :
    changesRows showDate release = [] := by
  rw [Release.actionCount, Release.allActions, List.length_eq_zero_iff, List.append_eq_nil_iff,
    List.flatMap_eq_nil_iff] at h
  obtain ⟨hown, hcomponents⟩ := h
  have hnone : (release.components.filter fun component => !component.actions.isEmpty) = [] := by
    simpa using hcomponents
  rw [changesRows, hown, hnone]
  rfl

theorem isEmpty_ofRelease_iff (release : Release) :
    (Section.ofRelease linker team release).isEmpty = true ↔ release.actionCount = 0 := by
  have hgroups (components : List Component) :
      (components.filter fun component => !component.actions.isEmpty) = [] ↔
        components.flatMap Component.actions = [] := by
    simp
  rw [Section.isEmpty, Bool.and_eq_true, Section.ofRelease, List.isEmpty_map, List.isEmpty_map,
    List.isEmpty_iff, List.isEmpty_iff, hgroups, Release.actionCount, Release.allActions,
    List.length_eq_zero_iff, List.append_eq_nil_iff]

theorem elements_sectionNodes (showDate : Bool) (part : Section) :
    elements "table" (part.nodes showDate) =
        (if part.isEmpty then [] else [part.tableNodes showDate]) ∧
      elements "p" (part.nodes showDate) =
        (if part.isEmpty then [plain "No changes in this release."] else []) := by
  by_cases hempty : part.isEmpty = true
  · simp [Section.nodes, hempty, nameOf]
  · simp [Section.nodes, hempty, nameOf]

theorem cellsOf_historyNodes (part : Section) :
    cellsOf part.historyNodes =
      [.data part.version, .data part.date, .data part.description, .data (toString part.added),
        .data (toString part.fixed), .data (toString part.updated),
        .data (toString part.removed)] := by
  simp only [Section.historyNodes, cellsOf_append, cellsOf_cellNodes, cellsOf_plain,
    cellsOf_cons_data, cellsOf_nil, textOf_cons_ofTag, textOf_plain, textOf_nil, List.append_nil,
    String.ofList_toList]

/-- A release is shown by its row in the history together with its section. -/
theorem isShown_section (showDate : Bool) (release : Release) :
    IsShown showDate release (cellsOf (Section.ofRelease linker team release).historyNodes)
      ((Section.ofRelease linker team release).nodes showDate) := by
  obtain ⟨htables, hparagraphs⟩ :=
    elements_sectionNodes showDate (Section.ofRelease linker team release)
  have hempty := isEmpty_ofRelease_iff linker team release
  have htable := rowsOf_tableNodes linker team showDate release
  have hrows : shownRows ((Section.ofRelease linker team release).nodes showDate) =
      changesRows showDate release := by
    by_cases hnone : release.actionCount = 0
    · rw [shownRows, htables, if_pos (hempty.mpr hnone), changesRows_eq_nil hnone,
        List.flatMap_nil]
    · rw [shownRows, htables, if_neg (mt hempty.mp hnone), List.flatMap_singleton, htable,
        List.tail_cons]
  refine ⟨?_, ?_, ?_⟩
  · by_cases hnone : release.actionCount = 0
    · rw [htables, if_pos (hempty.mpr hnone), if_pos hnone, List.map_nil]
    · rw [htables, if_neg (mt hempty.mp hnone), if_neg hnone, List.map_singleton, htable]
  · by_cases hnone : release.actionCount = 0
    · rw [hparagraphs, if_pos (hempty.mpr hnone), if_pos hnone, List.map_singleton, textOf_plain]
    · rw [hparagraphs, if_neg (mt hempty.mp hnone), if_neg hnone, List.map_nil]
  · rw [hrows, typeCount_changesRows, typeCount_changesRows, typeCount_changesRows,
      typeCount_changesRows]
    exact cellsOf_historyNodes (Section.ofRelease linker team release)

theorem elements_historyNodes (sections : List Section) :
    elements "tr" (historyNodes sections) =
      historyTitleNodes :: sections.map Section.historyNodes := by
  have hrow (part : Section) : elements "tr" part.historyElement = [part.historyNodes] := by
    simp [Section.historyElement, nameOf]
  have hname : nameOf "tr".toList = "tr".toList := by decide +kernel
  simp only [historyNodes, elements_append, elements_plain, List.nil_append, List.append_nil,
    elements_flatMap_eq_map hrow]
  rw [elements_cons_ofTag, if_pos hname, elements_nil, List.singleton_append]

/-- The history has a row for each release. -/
theorem rowsOf_historyNodes (sections : List Section) :
    rowsOf (historyNodes sections) =
      historyTitleRow :: sections.map fun part => cellsOf part.historyNodes := by
  have htitles : cellsOf historyTitleNodes = historyTitleRow := by
    simp [historyTitleNodes, historyTitleRow, cellsOf_cellNodes]
  rw [rowsOf, elements_historyNodes, List.map_cons, htitles, List.map_map]
  rfl

/-- No part of the line about the author is an element of another name than a paragraph. -/
theorem elements_authorNodes {name : String} (hname : name ≠ "p") (content : Content) :
    elements name content.authorNodes = [] := by
  have hparagraph : ['p'] ≠ name.toList := fun h => hname (String.toList_inj.mp h.symm)
  rw [Content.authorNodes]
  split
  · simp [nameOf, hparagraph]
  · simp

/-- The page has one table outside of sections. -/
theorem elementsAt_table (content : Content) (generatedOn : String) :
    elementsAt ["html", "body", "table"]
        (pageNodes content.title styles content.nodes generatedOn) =
      [historyNodes content.sections] := by
  have hauthor : elements "table" content.authorNodes = [] :=
    elements_authorNodes (by decide) content
  have hsection (part : Section) : elements "table" (part.element content.showActionDate) = [] := by
    simp [Section.element, withValue, nameOf]
  have htables : elements "table" content.nodes = [historyNodes content.sections] := by
    simp [Content.nodes, hauthor, elements_flatMap, hsection, nameOf]
  rw [elementsAt_page (by decide) (by decide), elementsAt, htables]
  rfl

theorem elementsAt_section (content : Content) (generatedOn : String) :
    elementsAt ["html", "body", "section"]
        (pageNodes content.title styles content.nodes generatedOn) =
      content.sections.map (Section.nodes content.showActionDate) := by
  have hauthor : elements "section" content.authorNodes = [] :=
    elements_authorNodes (by decide) content
  have hsection (part : Section) :
      elements "section" (part.element content.showActionDate) =
        [part.nodes content.showActionDate] := by
    simp [Section.element, withValue, nameOf]
  have hsections : elements "section" content.nodes =
      content.sections.map (Section.nodes content.showActionDate) := by
    simp [Content.nodes, hauthor, elements_flatMap_eq_map hsection, nameOf]
  rw [elementsAt_page (by decide) (by decide), elementsAt, hsections]
  exact List.flatMap_singleton' _

/-- The page shows every action of each release once, and counts what it shows. -/
theorem report_isShown (project : Metadata) (document : ChangesDocument)
    (releases : List Release) (showActionDate : Bool) (generatedOn : String) :
    ∃ page nodes history,
      (report project document releases showActionDate generatedOn).outcome = .ok page ∧
        read? page = some nodes ∧
        (elementsAt ["html", "body", "table"] nodes).map rowsOf = [historyTitleRow :: history] ∧
        history.length = (elementsAt ["html", "body", "section"] nodes).length ∧
        List.Forall₂ (fun release shown => IsShown showActionDate release shown.1 shown.2) releases
          (history.zip (elementsAt ["html", "body", "section"] nodes)) := by
  have hread := (spells_content (.of project document releases showActionDate)
    generatedOn).read?_render
  have hsections :=
    elementsAt_section (.of project document releases showActionDate) generatedOn
  have hparts : (Content.of project document releases showActionDate).sections =
      releases.map (Section.ofRelease (.ofProject project) (nonBlank? project.team)) := rfl
  have hshow : (Content.of project document releases showActionDate).showActionDate =
      showActionDate := rfl
  rw [hparts, hshow, List.map_map] at hsections
  refine ⟨_, _,
    releases.map ((fun part => cellsOf part.historyNodes) ∘
      Section.ofRelease (.ofProject project) (nonBlank? project.team)), rfl, hread, ?_, ?_, ?_⟩
  · rw [elementsAt_table, List.map_singleton, rowsOf_historyNodes, hparts, List.map_map]
  · rw [hsections, List.length_map, List.length_map]
  · rw [hsections, List.zip_map', List.forall₂_map_right_iff, List.forall₂_same]
    intro release _
    simp only [Function.comp_apply]
    exact isShown_section (.ofProject project) (nonBlank? project.team) showActionDate release

end ReleaseNotes.ChangesPage
