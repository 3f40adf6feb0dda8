import ReleaseNotes.Command.Run
import ReleaseNotes.Proofs.Files.Extracting
import ReleaseNotes.Proofs.Journal

/-!
What putting the example into a directory does to the files. All directories are made before the
first file is written, so either all the files are written or none, unless some of their paths are
too long for the file system. If some of the files are there already, then nothing is written.
-/

namespace ReleaseNotes

open FileTree
open ReleaseNotes.Path (IsFileName IsPlain)

namespace Example

def deeds : List Deed :=
  Embedded.deedsOfAll entries

/-- All directories are made before the first file is written. -/
theorem deeds_eq : deeds = .make "harvest" :: files.map fun file => .write file.1 file.2 := rfl

theorem filterMap_deeds : deeds.filterMap Deed.file? = files :=
  (Embedded.filesOfAll_eq_filterMap entries).symm

theorem isPlain_of_mem_deeds : ∀ deed ∈ deeds, IsPlain deed.path := by
  have hsteps : ∀ path ∈ deeds.map Deed.path, Path.isAbsolute path = false ∧
      ∀ name ∈ Path.steps path, name ≠ "." ∧ name ≠ ".." ∧ Path.isName name = true := by
    decide +kernel
  intro deed hdeed
  obtain ⟨hrelative, hnames⟩ := hsteps deed.path (List.mem_map_of_mem hdeed)
  refine ⟨hrelative, fun name hname => ?_⟩
  obtain ⟨hdot, hdots, hisName⟩ := hnames name hname
  exact Path.isFileName_of_mem_steps hname hdot hdots hisName

theorem isPlain_harvest : IsPlain "harvest" :=
  isPlain_of_mem_deeds (.make "harvest") (by rw [deeds_eq]; exact List.mem_cons_self)

theorem isFileName_harvest : IsFileName "harvest" := by
  have hsteps : Path.steps "harvest" = ["harvest"] := by decide +kernel
  exact isPlain_harvest.isFileName "harvest" (by rw [hsteps]; exact List.mem_singleton_self _)

theorem isPlain_of_mem_files : ∀ file ∈ files, IsPlain file.1 := by
  intro file hfile
  rw [← filterMap_deeds, List.mem_filterMap] at hfile
  obtain ⟨deed, hdeed, hmem⟩ := hfile
  have hplain := isPlain_of_mem_deeds deed hdeed
  cases deed with
  | make path => contradiction
  | write path content =>
    obtain rfl := Option.some.inj hmem
    exact hplain

theorem eq_harvest_of_make {path : String} (h : .make path ∈ deeds) : path = "harvest" := by
  rw [deeds_eq, List.mem_cons] at h
  rcases h with h | h
  · exact Deed.make.inj h
  · obtain ⟨_, _, hwrite⟩ := List.mem_map.mp h
    contradiction

theorem files_ne_nil : files ≠ [] :=
  List.cons_ne_nil _ _

theorem nodup_steps : (files.map fun file => Path.steps file.1).Nodup := by
  decide +kernel

/-- The one directory of the example holds all its files. -/
theorem dropLast_steps : ∀ file ∈ files, (Path.steps file.1).dropLast = Path.steps "harvest" := by
  have hpaths : ∀ path ∈ files.map Prod.fst,
      (Path.steps path).dropLast = Path.steps "harvest" := by decide +kernel
  exact fun file hfile => hpaths file.1 (List.mem_map_of_mem hfile)

/-- The directory of the example files has a path no longer than theirs, so it can be used if one of
theirs can. -/
theorem size_harvest_le : ∀ file ∈ files, "harvest".utf8ByteSize ≤ file.1.utf8ByteSize := by
  have hpaths : ∀ path ∈ files.map Prod.fst, "harvest".utf8ByteSize ≤ path.utf8ByteSize := by
    decide +kernel
  exact fun file hfile => hpaths file.1 (List.mem_map_of_mem hfile)

end Example

namespace Command

variable {tree edited : FileTree} {root : Location}

/-- The files of the example that are at their places in a directory. A path that is too long for
the file system leads nowhere. -/
def existing (tree : FileTree) (root : Location) : List (String × String) :=
  Example.files.filter fun file =>
    Path.isUsable (Path.join root.path file.1) && (tree.get? (placeOf root file.1)).isSome

def pathsIn (root : Location) (files : List (String × String)) : List String :=
  files.map fun file => Path.join root.path file.1

def extracted (tree : FileTree) (root : Location) : Attempt :=
  Deed.performAll tree root.path Example.deeds

def Fits (root : Location) : Prop :=
  ∀ file ∈ Example.files, Path.isUsable (Path.join root.path file.1) = true

section Filling

variable (htree : tree.IsTree) (hroot : ∀ name ∈ root, IsFileName name)

include htree hroot

theorem filter_exists? : ((Example.files.map fun file => Path.join root.path file.1).filter
    tree.exists?) = pathsIn root (existing tree root) := by
  rw [List.filter_map, pathsIn, existing]
  congr 1
  refine List.filter_congr fun file hfile => ?_
  exact exists?_join hroot (Example.isPlain_of_mem_files file hfile) htree

/-- A directory is filled if none of the files is there, and otherwise left alone. -/
theorem fill_cases :
    existing tree root ≠ [] ∧ (fill tree root.path).tree = tree ∧
      (fill tree root.path).journal.outcome =
        .error ⟨[], .filesExist (pathList (pathsIn root (existing tree root)))⟩ ∨
    existing tree root = [] ∧ (fill tree root.path).tree = (extracted tree root).tree ∧
      (fill tree root.path).journal.outcome =
        if (extracted tree root).isDone then .ok ()
        else .error ⟨[.copyingExamples], .fileSystem⟩ := by
  have hextracted : Embedded.extractAll tree root.path Example.entries = extracted tree root :=
    Embedded.extractAll_eq_performAll tree root.path Example.entries
  have hfilter := filter_exists? htree hroot
  unfold fill
  simp only [hfilter, hextracted]
  by_cases hexisting : existing tree root = []
  · refine Or.inr ⟨hexisting, ?_⟩
    rw [hexisting]
    by_cases hdone : (extracted tree root).isDone = true
    · simp only [pathsIn, List.map_nil, if_pos hdone]
      exact ⟨trivial, rfl⟩
    · simp only [pathsIn, List.map_nil, if_neg hdone]
      exact ⟨trivial, rfl⟩
  · refine Or.inl ⟨hexisting, ?_⟩
    have hpaths : pathsIn root (existing tree root) ≠ [] := by
      rwa [pathsIn, ne_eq, List.map_eq_nil_iff]
    split
    · contradiction
    · exact ⟨rfl, rfl⟩

end Filling

section Extracted

variable (hroot : ∀ name ∈ root, IsFileName name)

include hroot

/-- Extracting the example changes nothing but the places of its directories and files. -/
theorem isChangedBy_extracted (tree : FileTree) :
    Deed.IsChangedBy Example.deeds root tree (extracted tree root).tree :=
  Deed.isChangedBy_performAll hroot Example.isPlain_of_mem_deeds tree

omit hroot in
theorem get?_eq_none_of_existing (hexisting : existing tree root = []) :
    ∀ file ∈ Example.files, Path.isUsable (Path.join root.path file.1) = true →
      tree.get? (placeOf root file.1) = none := by
  intro file hfile husable
  have hnone := List.filter_eq_nil_iff.mp hexisting file hfile
  simpa [husable] using hnone

/-- What is written is new, so it takes the place of no other file. -/
theorem content?_extracted (hexisting : existing tree root = []) {location : Location}
    {content : ByteArray} (h : tree.content? location = some content) :
    (extracted tree root).tree.content? location = some content := by
  rcases isChangedBy_extracted hroot tree location with
    hsame | ⟨hnone, _⟩ | ⟨file, hfile, husable, rfl, _⟩
  · rw [FileTree.content?, hsame]
    exact h
  · rw [FileTree.content?, hnone] at h
    contradiction
  · rw [Example.filterMap_deeds] at hfile
    rw [FileTree.content?, get?_eq_none_of_existing hexisting file hfile husable] at h
    contradiction

/-- Once the directory of the example is made, its place leads to it. -/
theorem isDirectory_of_make (htree : tree.IsTree)
    (hdone : ((Deed.make "harvest").perform tree root.path).isDone = true) :
    ((Deed.make "harvest").perform tree root.path).tree.isDirectory (placeOf root "harvest") =
      true := by
  have hpath := Path.join_ne_empty root.path Example.isPlain_harvest.ne_empty
  obtain ⟨target, hfind, hdirectory⟩ :=
    exists_find?_of_attemptDirectories htree rfl hpath hdone
  obtain ⟨hlocate, _⟩ := Option.filter_eq_some_iff.mp hfind
  obtain ⟨_, rfl⟩ := eq_placeOf_of_locate hroot Example.isPlain_harvest hlocate
  exact hdirectory

omit hroot in
theorem dropLast_placeOf {file : String × String} (hfile : file ∈ Example.files) :
    (placeOf root file.1).dropLast = placeOf root "harvest" := by
  rw [placeOf, List.dropLast_append_of_ne_nil (Path.steps_ne_nil file.1),
    Example.dropLast_steps file hfile, placeOf]

/-- Once there is the directory for them, nothing is in the way of the files. -/
theorem isDone_of_make (htree : tree.IsTree) (hexisting : existing tree root = [])
    (hfits : Fits root)
    (hmade : ((Deed.make "harvest").perform tree root.path).isDone = true) :
    (extracted tree root).isDone = true := by
  rw [extracted, Example.deeds_eq, Deed.performAll_cons_of_isDone hmade]
  refine Deed.isDone_performAll_writes hroot (Deed.isTree_perform htree root.path _)
    Example.isPlain_of_mem_files hfits ?_ ?_
  · intro file hfile
    rw [dropLast_placeOf hfile]
    exact isDirectory_of_make hroot htree hmade
  · intro file hfile
    have hnone := get?_eq_none_of_existing hexisting file hfile (hfits file hfile)
    rcases Deed.isExtended_make hroot Example.isPlain_harvest tree (placeOf root file.1) with
      hsame | ⟨_, _, hnew⟩
    · rw [isDirectory, hsame, hnone]
    · -- The place is in the new directory, so the directory is not on the way from there.
      have hlength := hnew.length_le
      rw [← dropLast_placeOf hfile, List.length_dropLast] at hlength
      have hpositive := List.length_pos_iff.mpr (placeOf_ne_nil root file.1)
      omega

/-- Nothing is written by halves: if a directory cannot be filled, then no file is new in it. Only
where it is so deep down that the path of some file is too long, others may have been written. -/
theorem content?_of_not_isDone (htree : tree.IsTree) (hexisting : existing tree root = [])
    (hfits : Fits root) (hfailed : ¬(extracted tree root).isDone = true) (location : Location) :
    (extracted tree root).tree.content? location = tree.content? location := by
  by_cases hmade : ((Deed.make "harvest").perform tree root.path).isDone = true
  · exact absurd (isDone_of_make hroot htree hexisting hfits hmade) hfailed
  · rw [extracted, Example.deeds_eq, Deed.performAll_cons_of_not_isDone hmade]
    exact (Deed.isExtended_make hroot Example.isPlain_harvest tree).content? location

/-- Nothing can be put into a file. -/
theorem not_isDone_of_file (htree : tree.IsTree) (hfile : tree.kind? root = some false) :
    ¬(extracted tree root).isDone = true := by
  intro hdone
  rw [extracted, Example.deeds_eq] at hdone
  by_cases hmade : ((Deed.make "harvest").perform tree root.path).isDone = true
  · have hdirectory := isDirectory_of_make hroot htree hmade
    have hthere := (Deed.isTree_perform htree root.path (.make "harvest")).isDirectory_of_append
      (Path.steps_ne_nil "harvest") (isSome_of_isDirectory hdirectory)
    have hkind := Deed.includes_perform tree root.path (.make "harvest") root false hfile
    rw [kind?_eq_some_true_iff.mpr hthere] at hkind
    contradiction
  · rw [Deed.performAll_cons_of_not_isDone hmade] at hdone
    exact hmade hdone

end Extracted

section Existing

theorem mem_existing_iff (htree : tree.IsTree) (hroot : ∀ name ∈ root, IsFileName name)
    {file : String × String} : file ∈ existing tree root ↔
      file ∈ Example.files ∧ tree.exists? (Path.join root.path file.1) = true := by
  rw [existing, List.mem_filter]
  refine and_congr_right fun hfile => ?_
  rw [exists?_join hroot (Example.isPlain_of_mem_files file hfile) htree]

/-- Which files of the example exist does not depend on what is in them. -/
theorem existing_eq_of_sameShape (h : tree.SameShape edited) :
    existing tree root = existing edited root := by
  refine List.filter_congr fun file _ => ?_
  have hsome : (tree.get? (placeOf root file.1)).isSome =
      (edited.get? (placeOf root file.1)).isSome := by
    rw [Bool.eq_iff_iff]
    exact ⟨h.includes.isSome, h.symm.includes.isSome⟩
  rw [hsome]

/-- When the example is in a directory, all its files are found there, also after other changes. -/
theorem existing_of_isDone (hroot : ∀ name ∈ root, IsFileName name)
    (hdone : (extracted tree root).isDone = true)
    (hedited : (extracted tree root).tree.Includes edited) :
    existing edited root = Example.files := by
  refine List.filter_eq_self.mpr fun file hfile => ?_
  rw [← Example.filterMap_deeds] at hfile
  obtain ⟨husable, hcontent⟩ := Deed.content?_of_isDone hroot Example.isPlain_of_mem_deeds
    (by rw [Example.filterMap_deeds]; exact Example.nodup_steps) hdone file hfile
  have hsome : ((extracted tree root).tree.get? (placeOf root file.1)).isSome = true :=
    isSome_of_content? hcontent
  rw [husable, hedited.isSome hsome]
  rfl

end Existing

theorem Fits.harvest (h : Fits root) : Path.isUsable (Path.join root.path "harvest") = true := by
  obtain ⟨file, hfile⟩ := List.exists_mem_of_ne_nil _ Example.files_ne_nil
  have hbase : root.path ≠ "" := by simp [Location.path]
  exact Path.isUsable_join_of_size_le hbase (Example.isPlain_of_mem_files file hfile)
    Example.isPlain_harvest (Example.size_harvest_le file hfile) (h file hfile)

end Command

end ReleaseNotes
