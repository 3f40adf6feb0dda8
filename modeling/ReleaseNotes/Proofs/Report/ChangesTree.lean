import ReleaseNotes.Proofs.Report.Reading
import ReleaseNotes.Report.ChangesPage

/-!
The page with the changes as a tree. Each part of the layout puts elements on the page that depend
on nothing but the content of the page.
-/

namespace ReleaseNotes.ChangesPage

open Html

section Layout

def commaNodes : List (List Node) → List Node
  | [] => []
  | [item] => plain "\n      " ++ item ++ plain "\n      "
  | item :: items => plain "\n      " ++ item ++ plain ", \n      " ++ commaNodes items

def listNodes (words : String) (items : List (List Node)) : List Node :=
  if !items.isEmpty then
    plain ("\n      " ++ words ++ "\n      ") ++ commaNodes items ++ plain ".\n      "
  else []

def Row.changesNodes (row : Row) : List Node :=
  plain "\n      " ++ plain row.text ++ plain "\n      " ++
    listNodes "Fixes"
      (row.issues.map fun issue => linkedNodes "a href=\"" issue.id issue.link) ++
    plain "\n      " ++
    listNodes "Thanks to"
      (row.contributors.map fun person =>
        linkedNodes "a href=\"mailto:" person.name person.email) ++
    plain "\n    "

def cellNodes (cells : List Node) : List Node :=
  cells.flatMap fun cell => plain "\n    " ++ [cell]

def rowEnd (showDate : Bool) (cell : Node) : List Node :=
  plain "\n    " ++ (if showDate then [cell] else []) ++ plain "\n  "

def Row.nodes (showDate : Bool) (row : Row) : List Node :=
  cellNodes
      [ .ofTag "td" [.ofTag (withValue "span class=\"type type-" row.kind) (plain row.kind)],
        .ofTag "td" row.changesNodes,
        .ofTag "td" (linkedNodes "a href=\"" row.developer row.developerLink) ] ++
    rowEnd showDate (.ofTag "td" (plain row.date))

def Row.element (showDate : Bool) (row : Row) : List Node :=
  plain "\n    " ++ [.ofTag "tr" (row.nodes showDate)] ++ plain "\n  "

def rowsNodes (showDate : Bool) (rows : List Row) : List Node :=
  rows.flatMap (Row.element showDate)

def Group.headingNodes (showDate : Bool) (group : Group) : List Node :=
  cellNodes [.ofTag "th" [], .ofTag "th" (plain group.name), .ofTag "th" []] ++
    rowEnd showDate (.ofTag "th" [])

def Group.nodes (showDate : Bool) (group : Group) : List Node :=
  plain "\n  " ++ [.ofTag "tr class=\"component\"" (group.headingNodes showDate)] ++
    plain "\n  " ++ rowsNodes showDate group.rows ++ plain "\n  "

def titleNodes (showDate : Bool) : List Node :=
  cellNodes
      [.ofTag "th" (plain "Type"), .ofTag "th" (plain "Changes"), .ofTag "th" (plain "By")] ++
    rowEnd showDate (.ofTag "th" (plain "Date"))

def Section.tableNodes (showDate : Bool) (part : Section) : List Node :=
  plain "\n  " ++ [.ofTag "tr" (titleNodes showDate)] ++ plain "\n  " ++
    rowsNodes showDate part.rows ++ plain "\n  " ++
    part.groups.flatMap (Group.nodes showDate) ++ plain "\n"

def Section.headingNodes (part : Section) : List Node :=
  plain "Release " ++ plain part.version ++
    (if part.date != "" then
      plain " " ++ [.reference "ndash".toList] ++ plain " " ++ plain part.date
    else [])

def Section.nodes (showDate : Bool) (part : Section) : List Node :=
  plain "\n" ++ [.ofTag "h2" part.headingNodes] ++ plain "\n" ++
    (if part.isEmpty then
      plain "\n" ++ [.ofTag "p" (plain "No changes in this release.")] ++ plain "\n"
    else plain "\n" ++ [.ofTag "table" (part.tableNodes showDate)] ++ plain "\n") ++
    plain "\n"

def Section.element (showDate : Bool) (part : Section) : List Node :=
  plain "\n" ++ [.ofTag (withValue "section id=\"" part.anchor) (part.nodes showDate)] ++ plain "\n"

def Section.historyNodes (part : Section) : List Node :=
  cellNodes
      [ .ofTag "td" [.ofTag (withValue "a href=\"#" part.anchor) (plain part.version)],
        .ofTag "td" (plain part.date),
        .ofTag "td" (plain part.description),
        .ofTag "td" (plain (toString part.added)),
        .ofTag "td" (plain (toString part.fixed)),
        .ofTag "td" (plain (toString part.updated)),
        .ofTag "td" (plain (toString part.removed)) ] ++
    plain "\n  "

def Section.historyElement (part : Section) : List Node :=
  plain "\n  " ++ [.ofTag "tr" part.historyNodes] ++ plain "\n  "

def historyTitleNodes : List Node :=
  cellNodes
      (["Version", "Date", "Description", "Added", "Fixed", "Updated", "Removed"].map fun title =>
        .ofTag "th" (plain title)) ++
    plain "\n  "

def historyNodes (sections : List Section) : List Node :=
  plain "\n  " ++ [.ofTag "tr" historyTitleNodes] ++ plain "\n  " ++
    sections.flatMap Section.historyElement ++ plain "\n"

def Content.authorNodes (content : Content) : List Node :=
  match content.author with
  | some author =>
    plain "\n" ++
      [.ofTag "p class=\"author\""
        (plain "By " ++ linkedNodes "a href=\"mailto:" author content.authorEmail)] ++
      plain "\n"
  | none => plain "\n"

def Content.nodes (content : Content) : List Node :=
  content.authorNodes ++ plain "\n\n" ++ [.ofTag "h2" (plain "Release history")] ++ plain "\n" ++
    [.ofTag "table" (historyNodes content.sections)] ++ plain "\n\n" ++
    content.sections.flatMap (Section.element content.showActionDate) ++ plain "\n"

end Layout

section Spelling

variable {α : Type}

theorem spells_commaLines {layout : α → Html} {nodes : α → List Node}
    (h : ∀ item, Spells (layout item) (nodes item)) (items : List α) :
    Spells (commaLines (items.map layout)) (commaNodes (items.map nodes)) := by
  have hline : Spells (markup "\n      ") (plain "\n      ") := Spells.markup (by decide +kernel)
  have hcomma : Spells (markup ", \n      ") (plain ", \n      ") :=
    Spells.markup (by decide +kernel)
  induction items with
  | nil => exact Spells.nil
  | cons item items ih =>
    cases items with
    | nil => exact (hline.append (h item)).append hline
    | cons next items => exact ((hline.append (h item)).append hcomma).append ih

theorem spells_listing {layout : α → Html} {nodes : α → List Node} {words : String}
    (hwords : words.toList.flatMap reference = words.toList)
    (h : ∀ item, Spells (layout item) (nodes item)) (items : List α) :
    Spells (listing words (items.map layout)) (listNodes words (items.map nodes)) := by
  have hbegin : Spells (markup ("\n      " ++ words ++ "\n      "))
      (plain ("\n      " ++ words ++ "\n      ")) := by
    have hline : "\n      ".toList.flatMap reference = "\n      ".toList := by decide +kernel
    apply Spells.markup
    rw [String.toList_append, String.toList_append, List.flatMap_append, List.flatMap_append,
      hline, hwords]
  have hend : Spells (markup ".\n      ") (plain ".\n      ") := Spells.markup (by decide +kernel)
  have hempty : (items.map layout).isEmpty = (items.map nodes).isEmpty := by
    rw [List.isEmpty_map, List.isEmpty_map]
  rw [listing, listNodes, hempty]
  exact ((hbegin.append (spells_commaLines h items)).append hend).onlyIf _

/-- The tags of the page that are the same for all contents. -/
theorem isTag_fixed :
    ∀ source ∈ ["table", "tr", "td", "th", "p", "h2", "tr class=\"component\"",
      "p class=\"author\""], IsTag source := by
  decide +kernel

/-- Whatever the kind of an action is, it does not end the tag that it stands in. -/
theorem isTag_kind (kind : String) : IsTag (withValue "span class=\"type type-" kind) :=
  isTag_withValue (by decide +kernel) (by decide +kernel) kind

theorem isTag_anchor (anchor : String) :
    IsTag (withValue "a href=\"#" anchor) ∧ IsTag (withValue "section id=\"" anchor) :=
  ⟨isTag_withValue (by decide +kernel) (by decide +kernel) anchor,
    isTag_withValue (by decide +kernel) (by decide +kernel) anchor⟩

theorem spells_dateCell (date : String) :
    Spells (markup "<td>" ++ escaped date ++ markup "</td>") [.ofTag "td" (plain date)] := by
  constructor
  · simp [nameOf]
  · simp [isSound_ofTag, isTag_fixed]

theorem spells_row (showDate : Bool) (row : Row) :
    Spells (row.html showDate) (plain "  " ++ [.ofTag "tr" (row.nodes showDate)]) := by
  have hwords : "Fixes".toList.flatMap reference = "Fixes".toList ∧
      "Thanks to".toList.flatMap reference = "Thanks to".toList := by decide +kernel
  have hfixes := spells_listing hwords.1
    (fun issue : LinkedIssue => spells_linked issue.link issue.id) row.issues
  have hthanks := spells_listing hwords.2
    (fun person : Contributor => spells_mailLinked person.email person.name) row.contributors
  have hdeveloper := spells_linked row.developerLink row.developer
  have hdate := (spells_dateCell row.date).onlyIf showDate
  constructor
  · simp only [Row.html, Row.nodes, Row.changesNodes, rowEnd, List.flatMap_append, hfixes.chars_eq,
      hthanks.chars_eq, hdeveloper.chars_eq, hdate.chars_eq]
    simp [cellNodes, withValue, nameOf, reference]
  · simp [Row.nodes, Row.changesNodes, cellNodes, rowEnd, isSound_ofTag, isTag_fixed, isTag_kind,
      hfixes.allSound, hthanks.allSound, hdeveloper.allSound, hdate.allSound]

theorem spells_rows (showDate : Bool) (rows : List Row) :
    Spells (rowsHtml showDate rows) (rowsNodes showDate rows) := by
  refine Spells.flatMap (fun row => ?_) rows
  have hrow := spells_row showDate row
  refine ⟨?_, ?_⟩
  · simp [Row.element, hrow.chars_eq, reference]
  · simpa [Row.element] using hrow.allSound

theorem spells_group (showDate : Bool) (group : Group) :
    Spells (group.html showDate) (group.nodes showDate) := by
  have hrows := spells_rows showDate group.rows
  have hcell : Spells (markup "<th></th>") [.ofTag "th" []] := by
    constructor
    · simp [nameOf]
    · simp [isSound_ofTag, isTag_fixed]
  have hdate := hcell.onlyIf showDate
  constructor
  · simp only [Group.html, Group.nodes, Group.headingNodes, rowEnd, List.flatMap_append,
      hrows.chars_eq, hdate.chars_eq]
    simp [cellNodes, nameOf, reference]
  · simp [Group.nodes, Group.headingNodes, cellNodes, rowEnd, isSound_ofTag, isTag_fixed,
      hrows.allSound, hdate.allSound]

theorem spells_table (showDate : Bool) (part : Section) :
    Spells (part.tableHtml showDate)
      (plain "\n" ++ [.ofTag "table" (part.tableNodes showDate)] ++ plain "\n") := by
  have hrows := spells_rows showDate part.rows
  have hgroups := Spells.flatMap (spells_group showDate) part.groups
  have hcell : Spells (markup "<th>Date</th>") [.ofTag "th" (plain "Date")] := by
    constructor
    · simp [nameOf, reference]
    · simp [isSound_ofTag, isTag_fixed]
  have hdate := hcell.onlyIf showDate
  constructor
  · simp only [Section.tableHtml, Section.tableNodes, titleNodes, rowEnd, List.flatMap_append,
      hrows.chars_eq, hgroups.chars_eq, hdate.chars_eq]
    simp [cellNodes, nameOf, reference]
  · simp [Section.tableNodes, titleNodes, cellNodes, rowEnd, isSound_ofTag, isTag_fixed,
      hrows.allSound, hgroups.allSound, hdate.allSound]

theorem spells_heading (part : Section) :
    Spells
      (markup "Release " ++ escaped part.version ++
        onlyIf (part.date != "") (markup " &ndash; " ++ escaped part.date))
      part.headingNodes := by
  have hbegin : Spells (markup "Release ") (plain "Release ") := Spells.markup (by decide +kernel)
  have hdash : Spells (markup " &ndash; ")
      (plain " " ++ [.reference "ndash".toList] ++ plain " ") := by
    constructor
    · simp [Node.write, reference]
    · simp [Node.IsSound, references]
  exact (hbegin.append (Spells.escaped part.version)).append
    ((hdash.append (Spells.escaped part.date)).onlyIf _)

/-- A section spells its heading and then its table, or the words that there are no changes. -/
theorem spells_section (showDate : Bool) (part : Section) :
    Spells (part.html showDate) (part.element showDate) := by
  have hheading := spells_heading part
  have htable := spells_table showDate part
  by_cases hempty : part.isEmpty = true
  · constructor
    · simp [Section.html, Section.element, Section.nodes, hempty, ← hheading.chars_eq, withValue,
        nameOf, reference]
    · simp [Section.element, Section.nodes, hempty, isSound_ofTag, isTag_fixed, isTag_anchor,
        hheading.allSound]
  · constructor
    · simp [Section.html, Section.element, Section.nodes, hempty, ← hheading.chars_eq,
        htable.chars_eq, withValue, nameOf, reference]
    · simpa [Section.element, Section.nodes, hempty, isSound_ofTag, isTag_fixed, isTag_anchor,
        hheading.allSound] using htable.allSound

theorem spells_history (part : Section) :
    Spells part.historyHtml part.historyElement := by
  constructor
  · simp [Section.historyHtml, Section.historyElement, Section.historyNodes, cellNodes, number,
      Piece.chars, withValue, nameOf, reference]
  · simp [Section.historyElement, Section.historyNodes, cellNodes, isSound_ofTag, isTag_fixed,
      isTag_anchor]

theorem spells_author (content : Content) : Spells content.authorHtml content.authorNodes := by
  cases hauthor : content.author with
  | none =>
    rw [Content.authorHtml, Content.authorNodes, hauthor]
    exact Spells.markup (by decide +kernel)
  | some author =>
    have hmail := spells_mailLinked content.authorEmail author
    rw [Content.authorHtml, Content.authorNodes, hauthor]
    constructor
    · simp [nameOf, reference, hmail.chars_eq]
    · simp [isSound_ofTag, isTag_fixed, hmail.allSound]

def historyStart : Html :=
  markup "\n\n<h2>Release history</h2>\n<table>\n  <tr>\n    <th>Version</th>\n    " ++
    markup "<th>Date</th>\n    <th>Description</th>\n    <th>Added</th>\n    " ++
    markup "<th>Fixed</th>\n    <th>Updated</th>\n    <th>Removed</th>\n  </tr>\n  "

theorem chars_historyStart :
    historyStart.flatMap Piece.chars =
      writeAll (plain "\n\n" ++ [.ofTag "h2" (plain "Release history")] ++ plain "\n") ++
        '<' :: ("table".toList ++ '>' ::
          writeAll (plain "\n  " ++ [.ofTag "tr" historyTitleNodes] ++ plain "\n  ")) := by
  decide +kernel

/-- The whole page spells its tree, so reading it gives the tree back. -/
theorem spells_content (content : Content) (generatedOn : String) :
    Spells (content.html generatedOn)
      (pageNodes content.title styles content.nodes generatedOn) := by
  have hauthor := spells_author content
  have hhistory := Spells.flatMap spells_history content.sections
  have hsections := Spells.flatMap (spells_section content.showActionDate) content.sections
  have hstyles : ((styleSheet styles).flatMap Piece.chars).flatMap reference =
      (styleSheet styles).flatMap Piece.chars := by
    decide +kernel
  have hend : (markup "\n</table>\n\n").flatMap Piece.chars =
      writeAll (plain "\n") ++ '<' :: '/' :: (nameOf "table".toList ++ '>' ::
        writeAll (plain "\n\n")) := by
    decide +kernel
  have hlast : (markup "\n").flatMap Piece.chars = writeAll (plain "\n") := by decide +kernel
  have hbody : Spells
      (content.authorHtml ++ historyStart ++ content.sections.flatMap Section.historyHtml ++
        markup "\n</table>\n\n" ++
        content.sections.flatMap (Section.html content.showActionDate) ++ markup "\n")
      content.nodes := by
    constructor
    · simp only [Content.nodes, historyNodes, List.flatMap_append, hauthor.chars_eq,
        chars_historyStart, hhistory.chars_eq, hend, hsections.chars_eq, hlast, writeAll_append,
        writeAll_cons, write_ofTag, List.append_assoc, List.cons_append,
        List.nil_append]
    · simpa [Content.nodes, historyNodes, historyTitleNodes, cellNodes, isSound_ofTag, isTag_fixed,
        hauthor.allSound] using And.intro hhistory.allSound hsections.allSound
  have hpage := spells_page hbody hstyles content.title generatedOn
  simpa only [Content.html, historyStart, List.append_assoc] using hpage

end Spelling

end ReleaseNotes.ChangesPage
