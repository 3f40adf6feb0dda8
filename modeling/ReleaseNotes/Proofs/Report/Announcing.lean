import ReleaseNotes.Proofs.Journal
import ReleaseNotes.Proofs.Release.Listing
import ReleaseNotes.Report.Announcement

/-!
What is announced. The list of changes is made of rows: the actions of each category under its
heading, and then those of the components, each under the name of its component. Categories and
components without such actions have no rows. A release is announced exactly if it is the first one
of the project version, and the releases after it and the other ones before it do not matter.
-/

namespace ReleaseNotes.Announcement

open Text

inductive Row where
  | heading (words : String)
  | component (name : String)
  | entry (line : String)
deriving DecidableEq, Repr

/-- The lines of a row. A blank line stands before a heading and before the name of a component. -/
def Row.text : Row → String
  | .heading words => "\n" ++ words ++ ":\n"
  | .component name => "\nChanges in " ++ name ++ ":\n"
  | .entry line => "o " ++ line ++ "\n"

def rowsText (rows : List Row) : String := String.join (rows.map Row.text)

def mention (words : String) (items : List String) : String :=
  if items.isEmpty then "" else words ++ ", ".intercalate items ++ "."

/-- The line for an action: its text, its issues, each once, and the people who are thanked. -/
def line (action : Action) : String :=
  action.text ++ mention "  Issue: " (action.issue.toList ++ action.fixedIssues).eraseDups ++
    mention " Thanks to " (action.contributors.map Contributor.name)

def category (kind words : String) (actions : List Action) : List Row :=
  match actions.filter (·.kind == kind) with
  | [] => []
  | first :: others =>
    .heading words :: (first :: others).map fun action => .entry (line action)

def categorized (actions : List Action) : List Row :=
  category "add" "New features" actions ++ category "fix" "Fixed bugs" actions ++
    category "update" "Changes" actions ++ category "remove" "Removed" actions

def IsAnnounced (action : Action) : Prop :=
  action.kind ∈ ["add", "fix", "update", "remove"]

instance : DecidablePred IsAnnounced := fun _ => inferInstanceAs (Decidable (_ ∈ _))

def componentRows (component : Component) : List Row :=
  if ∃ action ∈ component.actions, IsAnnounced action then
    .component component.name :: categorized component.actions
  else []

def listing (release : Release) : List Row :=
  categorized release.actions ++ release.components.flatMap componentRows

def opening (project : Metadata) (description : Option String) : String :=
  let finalName := project.finalName.getD
    (project.name ++ "-" ++ Version.stripSnapshot project.version)
  let team := project.developmentTeam.getD (project.name ++ " team")
  "The " ++ team ++ " is pleased to announce the " ++ finalName ++ " release!\n\n" ++
    (project.introduction.or project.url).getD "" ++ "\n" ++
    (if description.getD "" = "" then "" else "\n" ++ description.getD "" ++ "\n")

def linesText (lines : List String) : String := String.join (lines.map (· ++ "\n"))

/-- How to depend on a version of the project, if the project says which artifact it is. -/
def dependencyLines (project : Metadata) (version : String) : List String :=
  match project.groupId, project.artifactId with
  | some groupId, some artifactId =>
    [ "", "To use it, add the following dependency:", "", "  <dependency>",
      "    <groupId>" ++ groupId ++ "</groupId>",
      "    <artifactId>" ++ artifactId ++ "</artifactId>",
      "    <version>" ++ version ++ "</version>",
      "    <type>" ++ project.packaging.getD "jar" ++ "</type>", "  </dependency>" ]
  | _, _ => []

def closing (project : Metadata) : String :=
  let version := Version.stripSnapshot project.version
  let finalName := project.finalName.getD (project.name ++ "-" ++ version)
  let team := project.developmentTeam.getD (project.name ++ " team")
  let downloadUrl := project.downloadUrl.getD ""
  linesText (if downloadUrl = "" then []
    else ["", "You can download the " ++ finalName ++ " release from:", downloadUrl]) ++
    linesText (dependencyLines project version) ++ "\nHave fun!\n-" ++ team

section Text

/-- An action is announced by its line. -/
theorem entry_eq_line (action : Action) : entry action = line action := by
  have hmention (words : String) (items : List String) :
      (if items = [] then "" else words ++ joinWith ", " items ++ ".") = mention words items := by
    simp only [mention, List.isEmpty_iff, joinWith]
  rw [entry, line, hmention, hmention, Action.allIssues, distinct_eq_eraseDups, String.append_assoc]

theorem dependencyText_eq (project : Metadata) (version : String) :
    dependencyText project version = linesText (dependencyLines project version) := by
  rw [dependencyText, dependencyLines, ← String.toList_inj]
  cases project.groupId with
  | none => rfl
  | some groupId =>
    cases project.artifactId with
    | none => rfl
    | some artifactId => simp [linesText]

theorem downloadText_eq (finalName address : String) :
    (if address = "" then ""
      else "\nYou can download the " ++ finalName ++ " release from:\n" ++ address ++ "\n") =
    linesText (if address = "" then []
      else ["", "You can download the " ++ finalName ++ " release from:", address]) := by
  by_cases hnone : address = ""
  · rw [if_pos hnone, if_pos hnone]
    rfl
  · rw [if_neg hnone, if_neg hnone, ← String.toList_inj]
    simp [linesText]

theorem rowsText_cons (row : Row) (rows : List Row) :
    rowsText (row :: rows) = row.text ++ rowsText rows := String.join_cons

theorem rowsText_append (rows others : List Row) :
    rowsText (rows ++ others) = rowsText rows ++ rowsText others := by
  rw [rowsText, List.map_append, String.join_append]
  rfl

/-- What is made of several parts has their rows one after the other. -/
theorem rowsText_flatMap {α : Type} {write : α → String} {rows : α → List Row}
    (h : ∀ part, write part = rowsText (rows part)) (parts : List α) :
    String.join (parts.map write) = rowsText (parts.flatMap rows) := by
  induction parts with
  | nil => rfl
  | cons part parts ih =>
    rw [List.map_cons, String.join_cons, List.flatMap_cons, rowsText_append, h, ih]

def Block.rows (block : Block) : List Row :=
  .heading block.heading :: block.entries.map .entry

def Part.rows (part : Part) : List Row :=
  .component part.name :: part.blocks.flatMap Block.rows

theorem Block.text_eq (block : Block) : block.text = rowsText block.rows := by
  rw [Block.text, Block.rows, rowsText_cons, rowsText, List.map_map]
  rfl

theorem Part.text_eq (part : Part) : part.text = rowsText part.rows := by
  rw [Part.text, Part.rows, rowsText_cons, rowsText_flatMap Block.text_eq]
  rfl

theorem changesText_eq (release : Release) :
    changesText release = rowsText ((blocks release.actions).flatMap Block.rows ++
      (parts release.components).flatMap Part.rows) := by
  rw [changesText, rowsText_append, rowsText_flatMap Block.text_eq, rowsText_flatMap Part.text_eq]

end Text

section Rows

/-- The rows of one block, which is left out if it has no entries. -/
theorem flatMap_rows_blockFor (kind words : String) (actions : List Action) :
    ([Block.mk words ((actions.filter (·.kind == kind)).map entry)].filter
      fun block => !block.entries.isEmpty).flatMap Block.rows = category kind words actions := by
  rw [funext entry_eq_line]
  unfold category
  split
  · rename_i hnone
    rw [hnone]
    rfl
  · rename_i first others hsome
    rw [hsome]
    simp [Block.rows]

theorem flatMap_rows_blocks (actions : List Action) :
    (blocks actions).flatMap Block.rows = categorized actions := by
  simp only [categorized, ← flatMap_rows_blockFor, ← List.flatMap_append, ← List.filter_append]
  rfl

/-- A category without actions has no heading either. -/
theorem category_eq_nil_iff {kind words : String} {actions : List Action} :
    category kind words actions = [] ↔ ∀ action ∈ actions, action.kind ≠ kind := by
  have hfilter : actions.filter (·.kind == kind) = [] ↔ ∀ action ∈ actions, action.kind ≠ kind := by
    simp
  rw [← hfilter]
  unfold category
  split
  · rename_i hnone
    exact iff_of_true rfl hnone
  · rename_i hsome
    rw [hsome]
    exact iff_of_false (List.cons_ne_nil _ _) (List.cons_ne_nil _ _)

theorem categorized_eq_nil_iff {actions : List Action} :
    categorized actions = [] ↔ ∀ action ∈ actions, ¬IsAnnounced action := by
  simp only [categorized, List.append_eq_nil_iff, category_eq_nil_iff, IsAnnounced, List.mem_cons,
    List.not_mem_nil, or_false, not_or]
  constructor
  · rintro ⟨⟨⟨hadd, hfix⟩, hupdate⟩, hremove⟩ action haction
    exact ⟨hadd action haction, hfix action haction, hupdate action haction,
      hremove action haction⟩
  · intro h
    exact ⟨⟨⟨fun action haction => (h action haction).1,
      fun action haction => (h action haction).2.1⟩,
      fun action haction => (h action haction).2.2.1⟩,
      fun action haction => (h action haction).2.2.2⟩

theorem blocks_eq_nil_iff {actions : List Action} :
    blocks actions = [] ↔ ∀ action ∈ actions, ¬IsAnnounced action := by
  rw [← categorized_eq_nil_iff, ← flatMap_rows_blocks, List.flatMap_eq_nil_iff]
  constructor
  · intro hnone block hblock
    rw [hnone] at hblock
    contradiction
  · intro hrows
    apply List.eq_nil_iff_forall_not_mem.mpr
    intro block hblock
    exact List.cons_ne_nil _ _ (hrows block hblock)

/-- The rows of one component, which is left out if it has no blocks. -/
theorem flatMap_rows_partFor (component : Component) :
    ([Part.mk component.name (blocks component.actions)].filter
      fun part => !part.blocks.isEmpty).flatMap Part.rows = componentRows component := by
  by_cases hnone : blocks component.actions = []
  · have hno : ¬∃ action ∈ component.actions, IsAnnounced action := by
      rintro ⟨action, haction, hannounced⟩
      exact blocks_eq_nil_iff.mp hnone action haction hannounced
    rw [componentRows, if_neg hno, hnone]
    rfl
  · have hsome : ∃ action ∈ component.actions, IsAnnounced action := by
      by_contra hno
      exact hnone (blocks_eq_nil_iff.mpr fun action haction hannounced =>
        hno ⟨action, haction, hannounced⟩)
    rw [componentRows, if_pos hsome, ← flatMap_rows_blocks]
    simp [hnone, Part.rows]

theorem flatMap_rows_parts (components : List Component) :
    (parts components).flatMap Part.rows = components.flatMap componentRows := by
  induction components with
  | nil => rfl
  | cons component components ih =>
    rw [List.flatMap_cons, ← ih, ← flatMap_rows_partFor, ← List.flatMap_append, parts,
      List.map_cons, ← List.singleton_append, List.filter_append]
    rfl

/-- The changes of a release are announced by category, and then by component. -/
theorem changesText_eq_listing (release : Release) :
    changesText release = rowsText (listing release) := by
  rw [changesText_eq, flatMap_rows_blocks, flatMap_rows_parts]
  rfl

/-- An announcement has the list of changes between what is said about the project. -/
theorem announce_eq (project : Metadata) (release : Release) :
    announce project release = opening project release.description ++
      "\nChanges in this version include:\n" ++ rowsText (listing release) ++ "\n" ++
      closing project := by
  rw [← changesText_eq_listing]
  unfold announce opening closing
  simp only [← downloadText_eq, dependencyText_eq]
  simp only [String.append_assoc]

end Rows

section Selection

/-- The release is the first one of a version. -/
def IsFirst (version : String) (release : Release) (releases : List Release) : Prop :=
  ∃ before after, releases = before ++ release :: after ∧ release.version = version ∧
    ∀ other ∈ before, other.version ≠ version

theorem find?_eq_some_iff_isFirst {releases : List Release} {version : String}
    {release : Release} :
    Release.find? releases version = some release ↔ IsFirst version release releases := by
  rw [Release.find?, List.find?_eq_some_iff_append]
  simp only [beq_iff_eq, Bool.not_eq_true', beq_eq_false_iff_ne, IsFirst]
  constructor
  · rintro ⟨hversion, before, after, heq, hbefore⟩
    exact ⟨before, after, heq, hversion, hbefore⟩
  · rintro ⟨before, after, heq, hversion, hbefore⟩
    exact ⟨hversion, before, after, heq, hbefore⟩

/-- Some release is the first one of a version exactly if there is a release of that version. -/
theorem exists_isFirst_iff {version : String} {releases : List Release} :
    (∃ release, IsFirst version release releases) ↔
      ∃ release ∈ releases, release.version = version := by
  simp only [← find?_eq_some_iff_isFirst, ← Option.isSome_iff_exists, Release.find?,
    List.find?_isSome, beq_iff_eq]

/-- With a release of the project version, its announcement follows one entry in the log. -/
theorem ofReleases_of_isFirst {project : Metadata} {releases : List Release} {release : Release}
    (h : IsFirst (Version.stripSnapshot project.prefixedVersion) release releases) :
    ofReleases project releases =
      ⟨[.logged ⟨.info, s!"Creating the announcement of release {release.version}."⟩],
        .ok (announce project release)⟩ := by
  have hfind := find?_eq_some_iff_isFirst.mpr h
  obtain ⟨before, after, rfl, -, -⟩ := h
  have hsome : (before ++ release :: after).isEmpty = false := by simp
  rw [ofReleases, hsome, Release.latest, hfind]
  rfl

/-- There is an announcement exactly if there is a release of the version of the project. -/
theorem outcome_ofReleases_eq_ok_iff {project : Metadata} {releases : List Release}
    {text : String} :
    (ofReleases project releases).outcome = .ok text ↔
      ∃ release, IsFirst (Version.stripSnapshot project.prefixedVersion) release releases ∧
        text = announce project release := by
  constructor
  · intro h
    cases hempty : releases.isEmpty with
    | true =>
      rw [ofReleases, hempty] at h
      contradiction
    | false =>
      cases hfind : Release.find? releases (Version.stripSnapshot project.prefixedVersion) with
      | none =>
        rw [ofReleases, hempty, Release.latest, hfind] at h
        contradiction
      | some release =>
        have hfirst := find?_eq_some_iff_isFirst.mp hfind
        rw [ofReleases_of_isFirst hfirst] at h
        exact ⟨release, hfirst, (Except.ok.inj h).symm⟩
  · rintro ⟨release, hfirst, rfl⟩
    rw [ofReleases_of_isFirst hfirst]

/-- The announcement exists exactly if there is a release of the project version, after the prefix
and without the mark of a version under development. It has the rows of the first such release, and
the other releases do not matter. -/
theorem ofReleases_announces_first (project : Metadata) (releases : List Release) :
    let version := Version.stripSnapshot (project.versionPrefix.getD "" ++ project.version)
    ((∃ text, (ofReleases project releases).outcome = .ok text) ↔
      ∃ release ∈ releases, release.version = version) ∧
    (∀ text, (ofReleases project releases).outcome = .ok text ↔
      ∃ release, IsFirst version release releases ∧
        text = opening project release.description ++ "\nChanges in this version include:\n" ++
          rowsText (listing release) ++ "\n" ++ closing project) ∧
    ∀ release others, IsFirst version release releases → IsFirst version release others →
      ofReleases project others = ofReleases project releases := by
  intro version
  refine ⟨?_, ?_, ?_⟩
  · rw [← exists_isFirst_iff]
    simp only [outcome_ofReleases_eq_ok_iff, exists_comm (α := String), exists_and_left,
      exists_eq, and_true]
    rfl
  · intro text
    simp only [outcome_ofReleases_eq_ok_iff, announce_eq]
    rfl
  · intro release others hfirst hothers
    rw [ofReleases_of_isFirst hfirst, ofReleases_of_isFirst hothers]

end Selection

def sampleProject : Metadata :=
  { Metadata.ofName "Example" "1.1-SNAPSHOT" with
    groupId := some "org.example"
    artifactId := some "example"
    url := some "https://example.org/"
    downloadUrl := some "https://example.org/get" }

def sampleRelease : Release where
  version := "1.1"
  date := none
  description := none
  actions :=
    [ ⟨"fix", "Sort.", some "EX-1", ["EX-2", "EX-1"], none, [⟨"Jane", none⟩, ⟨"John", none⟩],
        none, none⟩,
      ⟨"test", "Try.", none, [], none, [], none, none⟩,
      ⟨"fix", "Trim.", none, [], none, [], none, none⟩ ]
  components :=
    [ ⟨"docs", none, [⟨"test", "Read.", none, [], none, [], none, none⟩]⟩,
      ⟨"core", none, [⟨"add", "Speak.", none, [], none, [], none, none⟩]⟩ ]

/-- Actions that are announced and actions that are not, of the project and of its components. -/
theorem ofReleases_announces_first_sample :
    (ofReleases sampleProject [{ sampleRelease with version := "1.0" }, sampleRelease]).outcome =
      .ok ("The Example team is pleased to announce the Example-1.1 release!\n\n" ++
        "https://example.org/\n\nChanges in this version include:\n\n" ++
        "Fixed bugs:\no Sort.  Issue: EX-1, EX-2. Thanks to Jane, John.\no Trim.\n\n" ++
        "Changes in core:\n\nNew features:\no Speak.\n\n\n" ++
        "You can download the Example-1.1 release from:\nhttps://example.org/get\n\n" ++
        "To use it, add the following dependency:\n\n  <dependency>\n" ++
        "    <groupId>org.example</groupId>\n    <artifactId>example</artifactId>\n" ++
        "    <version>1.1</version>\n    <type>jar</type>\n  </dependency>\n\n" ++
        "Have fun!\n-Example team") := by
  refine ((ofReleases_announces_first _ _).2.1 _).mpr ⟨sampleRelease, ?_, by decide +kernel⟩
  exact ⟨[{ sampleRelease with version := "1.0" }], [], rfl, by decide +kernel, by decide +kernel⟩

end ReleaseNotes.Announcement
