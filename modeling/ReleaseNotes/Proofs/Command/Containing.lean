import Mathlib
import ReleaseNotes.Proofs.Command.Saving
import ReleaseNotes.Proofs.Files.Extracting
import ReleaseNotes.Proofs.Journal

/-!
What commands do to the files. A command works out a whole file before it writes, and there is
nothing to write if it fails in doing so. All that a failure can leave behind is the directory for
a file whose path is too long.
-/

namespace ReleaseNotes

/-- There is a slash before each name on the way to a location. -/
theorem Location.size_path {location : Location} (h : location ≠ []) :
    location.path.utf8ByteSize = (location.map fun name => 1 + name.utf8ByteSize).sum := by
  have hslash : "/".utf8ByteSize = 1 := by decide +kernel
  rw [Location.path, String.utf8ByteSize_append, hslash]
  induction location with
  | nil => contradiction
  | cons name names ih =>
    rw [List.map_cons, List.sum_cons, Text.joinWith]
    cases names with
    | nil => simp [String.intercalate_singleton]
    | cons next names =>
      have hrest := ih (by simp)
      rw [Text.joinWith] at hrest
      rw [String.intercalate_cons_cons, String.utf8ByteSize_append, String.utf8ByteSize_append,
        hslash, ← hrest]
      omega

namespace Command

open FileTree Journaled Project
open ReleaseNotes.Path (IsFileName IsPlain)

variable {setting : Setting} {directory : String} {command : Command} {work : Journaled Output}

def fileName? : Command → Option String
  | .report _ => some "changes-report.html"
  | .announce => some "announcement.txt"
  | .issues .. => some "issues-report.html"
  | .check | .validate | .query | .init => none

def work? (setting : Setting) (directory : String) : Command → Option (Journaled Output)
  | .report showActionDate => some (changesOutput setting showActionDate directory)
  | .announce => some (announcementOutput setting directory)
  | .issues tracker columns => some (issuesOutput setting tracker columns directory)
  | .check | .validate | .query | .init => none

theorem run_of_work? (h : work? setting directory command = some work) :
    run setting directory command = saving setting work := by
  cases command with
  | report showActionDate =>
    obtain rfl := Option.some.inj h
    rfl
  | announce =>
    obtain rfl := Option.some.inj h
    rfl
  | issues tracker columns =>
    obtain rfl := Option.some.inj h
    rfl
  | check => contradiction
  | validate => contradiction
  | query => contradiction
  | init => contradiction

theorem mem_of_fileName? {name : String} (h : fileName? command = some name) :
    name ∈ ["changes-report.html", "announcement.txt", "issues-report.html"] := by
  cases command <;> simp_all [fileName?]

theorem isFileName_of_fileName? {name : String} (h : fileName? command = some name) :
    IsFileName name := by
  have hnames : ∀ name ∈ ["changes-report.html", "announcement.txt", "issues-report.html"],
      Path.steps name = [name] ∧ Path.isName name = true ∧ Path.isAbsolute name = false ∧
        name ≠ "." ∧ name ≠ ".." := by decide +kernel
  obtain ⟨hsteps, hname, hrelative, hdot, hdots⟩ := hnames name (mem_of_fileName? h)
  exact ⟨hsteps, hname, hrelative, hdot, hdots⟩

/-- A file that was worked out belongs to the project in the directory. -/
theorem load_of_work? (hwork : work? setting directory command = some work)
    (h : work.outcome = .ok output) :
    Project.load setting.tree setting.working directory = .ok output.project ∧
      fileName? command = some output.name := by
  cases command with
  | report showActionDate =>
    obtain rfl := Option.some.inj hwork
    simp only [changesOutput, outcome_bind_eq_ok_iff, outcome_pure_eq_ok_iff] at h
    obtain ⟨project, hproject, _, _, _, _, _, _, _, _, rfl⟩ := h
    exact ⟨hproject, rfl⟩
  | announce =>
    obtain rfl := Option.some.inj hwork
    simp only [announcementOutput, outcome_bind_eq_ok_iff, outcome_pure_eq_ok_iff] at h
    obtain ⟨project, hproject, _, _, _, _, _, _, rfl⟩ := h
    exact ⟨hproject, rfl⟩
  | issues tracker columns =>
    obtain rfl := Option.some.inj hwork
    simp only [issuesOutput, outcome_bind_eq_ok_iff, outcome_pure_eq_ok_iff] at h
    obtain ⟨project, hproject, _, _, _, _, _, _, _, _, rfl⟩ := h
    exact ⟨hproject, rfl⟩
  | check => contradiction
  | validate => contradiction
  | query => contradiction
  | init => contradiction

theorem saving_of_error {failure : Failure} (h : work.outcome = .error failure) :
    saving setting work = ⟨setting.tree, ⟨work.events, .error failure⟩⟩ := by
  simp only [saving, h]

theorem saving_of_ok (h : work.outcome = .ok output) :
    saving setting work =
      ⟨(save setting.tree output).tree, work >>= fun _ => (save setting.tree output).journal⟩ := by
  simp only [saving, h]

theorem outcome_saving_of_ok (h : work.outcome = .ok output) :
    (saving setting work).journal.outcome = (save setting.tree output).journal.outcome := by
  rw [saving_of_ok h]
  show (work >>= fun _ => (save setting.tree output).journal).outcome = _
  rw [bind_of_ok h]

/-- What a run of a command does to the files. -/
structure IsContained (setting : Setting) (directory : String) (command : Command) (run : Run) :
    Prop where
  /-- A command that writes no file changes nothing. -/
  tree_of_reading : fileName? command = none → run.tree = setting.tree
  /-- A command that fails changes nothing, or it leaves behind the directory for a file whose path
  is too long. -/
  tree_of_error : ∀ failure, run.journal.outcome = .error failure →
    run.tree = setting.tree ∨
      ∃ project root name, Project.load setting.tree setting.working directory = .ok project ∧
        setting.tree.locate [] project.baseDirectory = some root ∧
        fileName? command = some name ∧
        IsLeftBehind setting.tree root (Path.join project.generatedDirectory name) failure run.tree
  /-- In either case, a command that fails leaves all files alone. -/
  content_of_error : ∀ failure, run.journal.outcome = .error failure →
    ∀ location, run.tree.content? location = setting.tree.content? location
  /-- A command that succeeds has written its file into the generated directory of the project. -/
  saved_of_ok : run.journal.outcome = .ok () → ∀ name, fileName? command = some name →
    ∃ project root content, Project.load setting.tree setting.working directory = .ok project ∧
      setting.tree.locate [] project.baseDirectory = some root ∧
      setting.tree.IsSaved (generatedAt root) name content run.tree

/-- If the file cannot be worked out, then nothing has happened yet. Otherwise the run ends as
saving does. -/
theorem isContained_saving (htree : setting.tree.IsTree)
    (hwork : work? setting directory command = some work) :
    IsContained setting directory command (saving setting work) := by
  cases hwritten : work.outcome with
  | error failure =>
    rw [saving_of_error hwritten]
    exact {
      tree_of_reading := fun _ => rfl
      tree_of_error := fun _ _ => Or.inl rfl
      content_of_error := fun _ _ _ => rfl
      saved_of_ok := nofun }
  | ok output =>
    obtain ⟨hload, hname⟩ := load_of_work? hwork hwritten
    obtain ⟨front, root, hat⟩ := Project.exists_isAt_of_load hload
    have hrun : (saving setting work).tree = (save setting.tree output).tree := by
      rw [saving_of_ok hwritten]
    have houtcome : (saving setting work).journal.outcome =
        (save setting.tree output).journal.outcome := outcome_saving_of_ok hwritten
    have hwriting : fileName? command ≠ none := by
      rw [hname]
      exact nofun
    rcases save_cases htree hat (isFileName_of_fileName? hname) with
      ⟨failed, hfailed, hkept⟩ | ⟨hdone, hsaved⟩
    · refine ⟨fun hnone => absurd hnone hwriting, fun failure herror => ?_,
        fun _ _ location => ?_, fun hok => ?_⟩
      · rw [houtcome, hfailed] at herror
        obtain rfl := Except.error.inj herror
        rw [hrun]
        exact hkept.imp_right fun hleft => ⟨output.project, root, output.name, hload, hat.locate,
          hname, hleft⟩
      · rw [hrun]
        rcases hkept with hkept | hleft
        · rw [hkept]
        · exact hleft.content? location
      · rw [houtcome, hfailed] at hok
        contradiction
    · have hsucceeded {failure : Failure} :
          (saving setting work).journal.outcome ≠ .error failure := by
        rw [houtcome, hdone]
        exact nofun
      refine ⟨fun hnone => absurd hnone hwriting, fun failure herror => absurd herror hsucceeded,
        fun failure herror => absurd herror hsucceeded, fun _ name hfile => ?_⟩
      obtain rfl : output.name = name := Option.some.inj (hname.symm.trans hfile)
      refine ⟨output.project, root, output.content.toUTF8, hload, hat.locate, ?_⟩
      rwa [hrun]

section Plain

variable {root : Location}

def plainText : String := "{name: P, version: 1, systems: []}"

def around (root : Location) : FileTree :=
  ⟨root.inits.map fun location => (location, .directory)⟩

def plainTree (root : Location) : FileTree :=
  ((around root).set (root ++ ["harvest"]) .directory).set
    (root ++ ["harvest"] ++ ["project.yaml"]) (.file plainText.toUTF8)

def plainProject (root : Location) : Project where
  baseDirectory := root.path
  metadata := { Metadata.ofName "P" "1" with origins := [] }
  trackers := .default

def plainSetting (root : Location) : Setting where
  tree := plainTree root
  working := root
  environment := ⟨.offline, none, none⟩
  time := "2022-06-01"

theorem get?_around (root location : Location) :
    (around root).get? location = if location <+: root then some .directory else none := by
  have hlookup (locations : List Location) :
      (locations.map fun location => (location, FileEntry.directory)).lookup location =
        if location ∈ locations then some .directory else none := by
    induction locations with
    | nil => rfl
    | cons other locations ih =>
      rw [List.map_cons, List.lookup_cons, ih]
      by_cases hother : location = other
      · simp [hother]
      · simp [hother, beq_false_of_ne hother]
  rw [get?, around, hlookup]
  by_cases hempty : location = []
  · simp [hempty]
  · simp [hempty]

theorem get?_around_append (root : Location) {names : List String} (h : names ≠ []) :
    (around root).get? (root ++ names) = none := by
  rw [get?_around, if_neg]
  intro hprefix
  have hlength := hprefix.length_le
  have hpositive := List.length_pos_iff.mpr h
  rw [List.length_append] at hlength
  omega

theorem isDirectory_around (root : Location) : (around root).isDirectory root = true := by
  apply isDirectory_of_get?
  rw [get?_around, if_pos (List.prefix_refl root)]

theorem isTree_around (root : Location) : (around root).IsTree := by
  intro directory name hsome
  rw [get?_around] at hsome
  split at hsome
  · rename_i hprefix
    apply isDirectory_of_get?
    rw [get?_around, if_pos ((List.prefix_append directory [name]).trans hprefix)]
  · contradiction

theorem get?_plainTree (root location : Location) : (plainTree root).get? location =
    if location = root ++ ["harvest"] ++ ["project.yaml"] then some (.file plainText.toUTF8)
    else if location = root ++ ["harvest"] then some .directory
    else if location <+: root then some .directory else none := by
  rw [plainTree, get?_set _ _ _ (by simp), get?_set _ _ _ (by simp), get?_around]

/-- Below the root, there is nothing but the configuration file and its directory. -/
theorem get?_plainTree_append (root : Location) {names : List String} (hnames : names ≠ [])
    (hharvest : names ≠ ["harvest"]) (hproject : names ≠ ["harvest", "project.yaml"]) :
    (plainTree root).get? (root ++ names) = none := by
  rw [plainTree, get?_set _ _ _ (by simp), get?_set _ _ _ (by simp), List.append_assoc,
    List.singleton_append, if_neg (by simp [hproject]), if_neg (by simp [hharvest]),
    get?_around_append root hnames]

theorem isTree_plainTree (root : Location) : (plainTree root).IsTree := by
  have hharvest : ((around root).set (root ++ ["harvest"]) .directory).IsTree := by
    refine (isTree_around root).set (isDirectory_around root) ?_ .directory
    rw [isDirectory, get?_around_append root (by simp)]
  refine hharvest.set (isDirectory_set _ (by simp)) ?_ (.file plainText.toUTF8)
  rw [isDirectory, get?_set _ _ _ (by simp), if_neg (by simp), List.append_assoc,
    get?_around_append root (by simp)]

theorem isDirectory_plainTree (root : Location) : (plainTree root).isDirectory root = true := by
  apply isDirectory_of_get?
  rw [get?_plainTree, if_neg (by simp), if_neg (by simp), if_pos (List.prefix_refl root)]

theorem get?_plainTree_generated (root : Location) :
    (plainTree root).get? (generatedAt root) = none :=
  get?_plainTree_append root (by simp) (by simp) (by simp)

def readyTree (root : Location) : FileTree :=
  (plainTree root).set (generatedAt root) .directory

theorem isTree_readyTree (root : Location) : (readyTree root).IsTree := by
  refine (isTree_plainTree root).set (isDirectory_plainTree root) ?_ .directory
  have hmissing := get?_plainTree_generated root
  rw [generatedAt] at hmissing
  rw [isDirectory, hmissing]

theorem get?_readyTree_report (root : Location) :
    (readyTree root).get? (generatedAt root ++ ["changes-report.html"]) = none := by
  rw [readyTree, get?_set _ _ _ (generatedAt_ne_nil root), generatedAt, if_neg (by simp),
    List.append_assoc, get?_plainTree_append root (by simp) (by simp) (by simp)]

/-- The paths in a plain project that matter to a report. -/
theorem isPlain_of_mem {path : String} (h : path ∈ ["harvest/project.yaml",
    "harvest/trackers.yaml", "generated/changes-report.html"]) : IsPlain path := by
  have hpaths : ∀ path ∈ ["harvest/project.yaml", "harvest/trackers.yaml",
      "generated/changes-report.html"], Path.isAbsolute path = false ∧
        ∀ name ∈ Path.steps path, name ≠ "." ∧ name ≠ ".." ∧ Path.isName name = true := by
    decide +kernel
  obtain ⟨hrelative, hnames⟩ := hpaths path h
  refine ⟨hrelative, fun name hname => ?_⟩
  obtain ⟨hdot, hdots, hisName⟩ := hnames name hname
  exact Path.isFileName_of_mem_steps hname hdot hdots hisName

theorem configurationFile_path (root : Location) {name : String}
    (h : Path.isAbsolute name = false) :
    configurationFile root.path name = Path.join root.path ("harvest/" ++ name) := by
  have hbase : root.path ≠ "" := by simp [Location.path]
  have hharvest : "harvest".toList.getLast? = some 't' := by decide +kernel
  exact Path.join_join hbase hharvest (by decide) (by decide +kernel) h

theorem reportPath_plain (root : Location) :
    Path.join (plainProject root).generatedDirectory "changes-report.html" =
      Path.join root.path "generated/changes-report.html" := by
  have hbase : root.path ≠ "" := by simp [Location.path]
  have hgenerated : "generated".toList.getLast? = some 'd' := by decide +kernel
  exact Path.join_join hbase hgenerated (by decide) (by decide +kernel) (by decide +kernel)

section Runs

variable (hroot : ∀ name ∈ root, IsFileName name) (hsize : root.path.utf8ByteSize ≤ 4074)

include hsize in
theorem isUsable_join_path {path : String} (hpath : path ≠ "") (h : path.utf8ByteSize ≤ 20) :
    Path.isUsable (Path.join root.path path) = true := by
  have hjoin := Path.size_join_le root.path path
  have hjoined : (Path.join root.path path).utf8ByteSize ≤ 4095 := by omega
  simp [Path.isUsable, Path.join_ne_empty root.path hpath, hjoined]

include hroot

include hsize in
/-- A plain project is loaded from its root. All that it leaves out has defaults. -/
theorem load_plain : Project.load (plainTree root) root "." = .ok (plainProject root) := by
  have hfound : (plainTree root).find? root "." = some root := by
    have hdot : Path.steps "." = ["."] := by decide +kernel
    have hstart : startOf root "." = root := if_neg (by decide +kernel)
    refine find?_eq_some_iff.mpr ⟨by decide +kernel, ?_, ?_⟩
    · rw [hstart, hdot, follow, if_pos (isDirectory_plainTree root), if_pos rfl]
      rfl
    · exact isSome_of_isDirectory (isDirectory_plainTree root)
  have hplain : IsPlain "harvest/project.yaml" := isPlain_of_mem (by simp)
  have hplace : placeOf root "harvest/project.yaml" = root ++ ["harvest"] ++ ["project.yaml"] := by
    have hsteps : Path.steps "harvest/project.yaml" = ["harvest", "project.yaml"] := by
      decide +kernel
    rw [placeOf, hsteps, List.append_assoc, List.singleton_append]
  have hfile : (plainTree root).get? (placeOf root "harvest/project.yaml") =
      some (.file plainText.toUTF8) := by
    rw [get?_plainTree, if_pos hplace]
  have hread : (plainTree root).readText? (metadataFile root.path) = some plainText := by
    have hlocate := locate_join hroot hplain (plainTree root)
    rw [if_pos (isUsable_join_path hsize (by decide) (by decide +kernel)),
      follow_of_isSome (isTree_plainTree root) (isFileName_of_mem_placeOf hroot hplain)
        (by rw [List.nil_append, hfile]; rfl), List.nil_append] at hlocate
    have hpath : metadataFile root.path = Path.join root.path "harvest/project.yaml" :=
      configurationFile_path root (by decide +kernel)
    have htext : String.fromUTF8? plainText.toUTF8 = some plainText :=
      dif_pos plainText.isValidUTF8
    simp only [readText?, hpath, hlocate, content?, hfile, Option.bind_eq_bind, Option.bind_some,
      htext]
  have hmissing : (plainTree root).exists? (trackersFile root.path) = false := by
    have hpath : trackersFile root.path = Path.join root.path "harvest/trackers.yaml" :=
      configurationFile_path root (by decide +kernel)
    have hsteps : Path.steps "harvest/trackers.yaml" = ["harvest", "trackers.yaml"] := by
      decide +kernel
    rw [hpath, exists?_join hroot (isPlain_of_mem (by simp)) (isTree_plainTree root), placeOf,
      hsteps, get?_plainTree_append root (by simp) (by simp) (by simp), Option.isSome_none,
      Bool.and_false]
  have hparse : Metadata.parse plainText = .ok (plainProject root).metadata := by cbv
  simp only [load, hfound, readFile, hread, loadTrackers, hmissing, Bind.bind, Except.bind, hparse]
  rfl

include hsize in
/-- The page itself does not matter here. -/
theorem exists_changesOutput_plain :
    ∃ page, (changesOutput (plainSetting root) false ".").outcome =
      .ok ⟨plainProject root, "changes-report.html", page⟩ := by
  have hreleases : ((plainProject root).releases (plainTree root) ⟨.offline, none, none⟩).outcome =
      .ok [] := rfl
  have hdocument : (document (plainSetting root) (plainProject root)).outcome = .ok .empty := rfl
  simp only [changesOutput, outcome_bind_eq_ok_iff, outcome_pure_eq_ok_iff]
  exact ⟨_, _, load_plain hroot hsize, (), rfl, _, hreleases, _, hdocument, _, rfl, rfl⟩

include hsize in
theorem createDirectories_plain :
    (plainTree root).createDirectories [] (plainProject root).generatedDirectory =
      some (readyTree root) := by
  have hmade := Deed.perform_make_of_missing hroot (isTree_plainTree root) isFileName_generated
    (isUsable_join_path hsize (by decide) (by decide +kernel)) (isDirectory_plainTree root)
    (get?_plainTree_generated root)
  rw [Deed.perform] at hmade
  rw [createDirectories, generatedDirectory, plainProject, hmade]
  rfl

theorem locate_report :
    (readyTree root).locate [] (Path.join root.path "generated/changes-report.html") =
      if Path.isUsable (Path.join root.path "generated/changes-report.html") then
        some (generatedAt root ++ ["changes-report.html"])
      else none := by
  have hplain : IsPlain "generated/changes-report.html" := isPlain_of_mem (by simp)
  have hsteps : Path.steps "generated/changes-report.html" =
      ["generated", "changes-report.html"] := by decide +kernel
  have hplace : placeOf root "generated/changes-report.html" =
      generatedAt root ++ ["changes-report.html"] := by
    rw [placeOf, hsteps, generatedAt, List.append_assoc, List.singleton_append]
  rw [locate_join hroot hplain, follow_of_isDirectory_dropLast (isTree_readyTree root)
    (isFileName_of_mem_placeOf hroot hplain), hplace]
  rw [hplace, List.dropLast_concat]
  exact isDirectory_set _ (generatedAt_ne_nil root)

include hsize

/-- The report on a plain project is written if its path is not too long. -/
theorem outcome_run_plain
    (h : Path.isUsable (Path.join root.path "generated/changes-report.html") = true) :
    (run (plainSetting root) "." (.report false)).journal.outcome = .ok () := by
  obtain ⟨page, hpage⟩ := exists_changesOutput_plain hroot hsize
  have hlocate := locate_report hroot
  rw [if_pos h, ← reportPath_plain] at hlocate
  have hfree : ¬(generatedAt root ++ ["changes-report.html"] = [] ∨
      (readyTree root).isDirectory (generatedAt root ++ ["changes-report.html"]) = true) := by
    simp [isDirectory, get?_readyTree_report]
  have hwrite : (readyTree root).write
      (Output.path ⟨plainProject root, "changes-report.html", page⟩) page.toUTF8 =
        some ((readyTree root).set _ (.file page.toUTF8)) :=
    write_eq_some_iff.mpr ⟨_, hlocate, hfree, rfl⟩
  rw [run_of_work? rfl, outcome_saving_of_ok hpage]
  exact congrArg (·.journal.outcome) (save_of_written (createDirectories_plain hroot hsize) hwrite)

/-- If its path is too long, then the directory for it is there afterwards, and nothing in it. -/
theorem run_plain_of_long
    (h : ¬Path.isUsable (Path.join root.path "generated/changes-report.html") = true) :
    (run (plainSetting root) "." (.report false)).journal.outcome =
        .error ⟨[.writing (Path.join root.path "generated/changes-report.html")], .fileSystem⟩ ∧
      (run (plainSetting root) "." (.report false)).tree = readyTree root := by
  obtain ⟨page, hpage⟩ := exists_changesOutput_plain hroot hsize
  have hlocate := locate_report hroot
  rw [if_neg h, ← reportPath_plain] at hlocate
  have hwrite : (readyTree root).write
      (Output.path ⟨plainProject root, "changes-report.html", page⟩) page.toUTF8 = none := by
    rw [write, Output.path, hlocate]
    rfl
  have hsave := save_of_unwritten (createDirectories_plain hroot hsize) hwrite
  rw [run_of_work? rfl, outcome_saving_of_ok hpage, saving_of_ok hpage, ← reportPath_plain]
  exact ⟨congrArg (·.journal.outcome) hsave, congrArg Run.tree hsave⟩

end Runs

def deepRoot : Location := List.replicate 37 (String.ofList (List.replicate 109 'a'))

theorem size_deepRoot : deepRoot.path.utf8ByteSize = 4070 := by
  have hname : (String.ofList (List.replicate 109 'a')).utf8ByteSize = 109 := by decide +kernel
  rw [Location.size_path (by simp [deepRoot]), deepRoot, List.map_replicate, List.sum_replicate,
    hname]
  rfl

end Plain

end Command

end ReleaseNotes
