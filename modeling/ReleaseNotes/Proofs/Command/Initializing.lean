import ReleaseNotes.Proofs.Command.ExampleFiles

/-!
What initializing a directory does to the files. A file that is there is never touched: if one of
the files of the example is at its place, then the run fails, names what there is and changes
nothing. If the run succeeds, then the files of the example are new. A second run fails. In any case
directories are created that are missing on a way that goes back out of them.
-/

namespace ReleaseNotes

open FileTree
open ReleaseNotes.Path (IsFileName)

/-- The tree has whatever it has in directories, and the working directory is one of them, with
names that files can have. -/
structure Setting.IsSound (setting : Setting) : Prop where
  isTree : setting.tree.IsTree
  isDirectory : setting.tree.isDirectory setting.working = true
  isFileName : ∀ name ∈ setting.working, IsFileName name

def Setting.edited (setting : Setting) (tree : FileTree) : Setting :=
  { setting with tree := tree }

namespace Command

variable {setting : Setting} {directory : String} {tree : FileTree} {root : Location}

def readied (setting : Setting) (directory : String) : Attempt :=
  if (setting.tree.find? setting.working directory).isSome then ⟨setting.tree, true⟩
  else setting.tree.attemptDirectories setting.working directory

theorem prepared_eq_readied (setting : Setting) (directory : String) :
    (prepared setting directory).1 = (readied setting directory).tree ∧
      (prepared setting directory).2.outcome =
        if (readied setting directory).isDone then .ok ()
        else .error ⟨[.creatingProjectDirectory], .fileSystem⟩ := by
  unfold prepared readied
  by_cases hfound : (setting.tree.find? setting.working directory).isSome = true
  · simp only [if_pos hfound]
    exact ⟨trivial, rfl⟩
  by_cases hdone : (setting.tree.attemptDirectories setting.working directory).isDone = true
  · simp only [if_neg hfound, if_pos hdone]
    exact ⟨trivial, rfl⟩
  · simp only [if_neg hfound, if_neg hdone]
    exact ⟨trivial, rfl⟩

def IsReady (setting : Setting) (directory : String) (root : Location) : Prop :=
  (readied setting directory).isDone = true ∧
    (readied setting directory).tree.find? setting.working directory = some root

/-- A run fills the directory, or it ends before that. -/
theorem run_init_cases (setting : Setting) (directory : String) :
    ((∀ root, ¬IsReady setting directory root) ∧
      (run setting directory .init).tree = (readied setting directory).tree ∧
      ∃ failure, (run setting directory .init).journal.outcome = .error failure) ∨
    ∃ root, IsReady setting directory root ∧
      (run setting directory .init).tree = (fill (readied setting directory).tree root.path).tree ∧
      (run setting directory .init).journal.outcome =
        (fill (readied setting directory).tree root.path).journal.outcome.mapError
          (·.within .initializing) := by
  obtain ⟨htree, houtcome⟩ := prepared_eq_readied setting directory
  have hrun : run setting directory .init =
      ⟨(initialized setting directory).tree,
        (initialized setting directory).journal.within .initializing⟩ := rfl
  rw [hrun]
  unfold initialized
  generalize prepared setting directory = pair at htree houtcome
  obtain ⟨tree, notice⟩ := pair
  simp only at htree houtcome
  subst htree
  by_cases hdone : (readied setting directory).isDone = true
  · rw [if_pos hdone] at houtcome
    cases hfind : (readied setting directory).tree.find? setting.working directory with
    | none =>
      refine Or.inl ⟨fun root hready => ?_, ?_⟩
      · exact absurd (hfind.symm.trans hready.2) nofun
      · simp only [houtcome, hfind, Journaled.bind_of_ok houtcome]
        exact ⟨trivial, _, rfl⟩
    | some root =>
      refine Or.inr ⟨root, ⟨hdone, hfind⟩, ?_⟩
      simp only [houtcome, hfind, Journaled.bind_of_ok houtcome]
      exact ⟨trivial, rfl⟩
  · rw [if_neg hdone] at houtcome
    refine Or.inl ⟨fun root hready => absurd hready.1 hdone, ?_⟩
    simp only [houtcome]
    refine ⟨trivial, ⟨[.initializing, .creatingProjectDirectory], .fileSystem⟩, ?_⟩
    rw [Journaled.within, houtcome]
    rfl

section Readied

/-- Making a directory ready adds directories on the way to it and does nothing else. -/
theorem isExtended_readied (setting : Setting) (directory : String) :
    setting.tree.IsExtended (· ∈ through (startOf setting.working directory) (Path.steps directory))
      (readied setting directory).tree := by
  unfold readied
  split
  · exact .refl _ setting.tree
  · exact isExtended_attemptDirectories setting.tree setting.working directory

theorem isTree_readied (hsound : setting.IsSound) (directory : String) :
    (readied setting directory).tree.IsTree := by
  unfold readied
  split
  · exact hsound.isTree
  · exact isTree_attemptDirectories hsound.isTree hsound.isDirectory directory

theorem readied_of_find? (h : setting.tree.find? setting.working directory = some root) :
    readied setting directory = ⟨setting.tree, true⟩ := by
  rw [readied, h]
  exact if_pos rfl

theorem readied_of_missing (h : setting.tree.find? setting.working directory = none) :
    readied setting directory = setting.tree.attemptDirectories setting.working directory := by
  rw [readied, h]
  exact if_neg nofun

theorem isReady_of_find? (h : setting.tree.find? setting.working directory = some root) :
    IsReady setting directory root := by
  rw [IsReady, readied_of_find? h]
  exact ⟨rfl, h⟩

theorem IsReady.unique {found : Location} (hready : IsReady setting directory root)
    (hfound : IsReady setting directory found) : found = root :=
  Option.some.inj (hfound.2.symm.trans hready.2)

theorem IsReady.isFileName (hready : IsReady setting directory root) (hsound : setting.IsSound) :
    ∀ name ∈ root, IsFileName name :=
  isFileName_of_find? hsound.isFileName hready.2

end Readied

/-- How a run goes: it ends before the directory is there, it finds files that are there already,
or it puts the example into the directory as far as that is possible. -/
inductive Course (setting : Setting) (directory : String) (run : Run) : Prop where
  | unready (hunready : ∀ root, ¬IsReady setting directory root)
      (htree : run.tree = (readied setting directory).tree)
      (hfailed : ∃ failure, run.journal.outcome = .error failure)
  | occupied (root : Location) (hready : IsReady setting directory root)
      (hexisting : existing (readied setting directory).tree root ≠ [])
      (htree : run.tree = (readied setting directory).tree)
      (houtcome : run.journal.outcome = .error ⟨[.initializing], .filesExist
        (pathList (pathsIn root (existing (readied setting directory).tree root)))⟩)
  | stuck (root : Location) (hready : IsReady setting directory root)
      (hexisting : existing (readied setting directory).tree root = [])
      (hstuck : ¬(extracted (readied setting directory).tree root).isDone = true)
      (htree : run.tree = (extracted (readied setting directory).tree root).tree)
      (hfailed : ∃ failure, run.journal.outcome = .error failure)
  | complete (root : Location) (hready : IsReady setting directory root)
      (hexisting : existing (readied setting directory).tree root = [])
      (hdone : (extracted (readied setting directory).tree root).isDone = true)
      (htree : run.tree = (extracted (readied setting directory).tree root).tree)
      (houtcome : run.journal.outcome = .ok ())

/-- There is no other way for a run to go. -/
theorem course_init (hsound : setting.IsSound) (directory : String) :
    Course setting directory (run setting directory .init) := by
  rcases run_init_cases setting directory with
    ⟨hunready, htree, hfailed⟩ | ⟨root, hready, htree, houtcome⟩
  · exact .unready hunready htree hfailed
  · have hroot := hready.isFileName hsound
    rcases fill_cases (isTree_readied hsound directory) hroot with
      ⟨hexisting, hfilled, hrefused⟩ | ⟨hexisting, hfilled, hextracted⟩
    · rw [hrefused] at houtcome
      exact .occupied root hready hexisting (htree.trans hfilled) houtcome
    · rw [hextracted] at houtcome
      by_cases hdone : (extracted (readied setting directory).tree root).isDone = true
      · rw [if_pos hdone] at houtcome
        exact .complete root hready hexisting hdone (htree.trans hfilled) houtcome
      · rw [if_neg hdone] at houtcome
        exact .stuck root hready hexisting hdone (htree.trans hfilled) ⟨_, houtcome⟩

section Courses

variable {run : Run} (hsound : setting.IsSound) (hcourse : Course setting directory run)

include hcourse

/-- Whatever is there once the directory is ready is there in the end. -/
theorem Course.includes : (readied setting directory).tree.Includes run.tree := by
  cases hcourse with
  | unready hunready htree hfailed =>
    rw [htree]
    exact fun _ _ hkind => hkind
  | occupied root hready hexisting htree houtcome =>
    rw [htree]
    exact fun _ _ hkind => hkind
  | stuck root hready hexisting hstuck htree hfailed =>
    rw [htree]
    exact Deed.includes_performAll _ root.path Example.deeds
  | complete root hready hexisting hdone htree houtcome =>
    rw [htree]
    exact Deed.includes_performAll _ root.path Example.deeds

include hsound

theorem Course.isTree : run.tree.IsTree := by
  have hreadied := isTree_readied hsound directory
  cases hcourse with
  | unready hunready htree hfailed => rwa [htree]
  | occupied root hready hexisting htree houtcome => rwa [htree]
  | stuck root hready hexisting hstuck htree hfailed =>
    rw [htree]
    exact Deed.isTree_performAll hreadied root.path Example.deeds
  | complete root hready hexisting hdone htree houtcome =>
    rw [htree]
    exact Deed.isTree_performAll hreadied root.path Example.deeds

/-- No file that was there has another content now. -/
theorem Course.content? {location : Location} {content : ByteArray}
    (h : setting.tree.content? location = some content) :
    run.tree.content? location = some content := by
  rw [← (isExtended_readied setting directory).content? location] at h
  cases hcourse with
  | unready hunready htree hfailed => rwa [htree]
  | occupied root hready hexisting htree houtcome => rwa [htree]
  | stuck root hready hexisting hstuck htree hfailed =>
    rw [htree]
    exact content?_extracted (hready.isFileName hsound) hexisting h
  | complete root hready hexisting hdone htree houtcome =>
    rw [htree]
    exact content?_extracted (hready.isFileName hsound) hexisting h

omit hsound in
/-- A run that succeeds has found none of the files of the example and has written all of them. -/
theorem Course.exists_complete (hok : run.journal.outcome = .ok ()) :
    ∃ root, IsReady setting directory root ∧
      existing (readied setting directory).tree root = [] ∧
      (extracted (readied setting directory).tree root).isDone = true ∧
      run.tree = (extracted (readied setting directory).tree root).tree := by
  cases hcourse with
  | unready hunready htree hfailed =>
    obtain ⟨failure, hfailed⟩ := hfailed
    rw [hok] at hfailed
    contradiction
  | occupied root hready hexisting htree houtcome =>
    rw [hok] at houtcome
    contradiction
  | stuck root hready hexisting hstuck htree hfailed =>
    obtain ⟨failure, hfailed⟩ := hfailed
    rw [hok] at hfailed
    contradiction
  | complete root hready hexisting hdone htree houtcome =>
    exact ⟨root, hready, hexisting, hdone, htree⟩

end Courses

section Again

variable {run : Run} {edited : FileTree}

/-- A directory that could not be made ready cannot be filled the next time either. -/
theorem not_isDone_of_unready (hsound : setting.IsSound)
    (hunready : ∀ root, ¬IsReady setting directory root)
    (hshape : (readied setting directory).tree.SameShape edited)
    (hready : IsReady (setting.edited edited) directory root) :
    (readied (setting.edited edited) directory).tree = edited ∧
      ¬(extracted edited root).isDone = true := by
  have htree : edited.IsTree := hshape.symm.isTree (isTree_readied hsound directory)
  have hroot : ∀ name ∈ root, IsFileName name :=
    isFileName_of_find? hsound.isFileName hready.2
  have hmissing : setting.tree.find? setting.working directory = none := by
    rw [Option.eq_none_iff_forall_ne_some]
    intro found hfound
    exact hunready found (isReady_of_find? hfound)
  have hreadied := readied_of_missing hmissing
  rw [hreadied] at hshape
  have hagain := attemptDirectories_again hshape.symm
  cases hfind : edited.find? setting.working directory with
  | none =>
    have hsecond : readied (setting.edited edited) directory =
        edited.attemptDirectories setting.working directory := readied_of_missing hfind
    have hfound := hready.2
    rw [hsecond, hagain] at hfound
    exact absurd (hfind.symm.trans hfound) nofun
  | some found =>
    have hsecond : readied (setting.edited edited) directory = ⟨edited, true⟩ :=
      readied_of_find? hfind
    have hfound := hready.2
    rw [hsecond] at hfound
    obtain rfl : found = root := Option.some.inj (hfind.symm.trans hfound)
    refine ⟨by rw [hsecond], not_isDone_of_file hroot htree ?_⟩
    obtain ⟨_, hsome⟩ := Option.filter_eq_some_iff.mp hfind
    refine kind?_of_isSome hsome fun hdirectory => ?_
    -- It would have been done the first time.
    rw [attemptDirectories_of_find? hfind hdirectory] at hagain
    have hdone : (readied setting directory).isDone = true := by
      rw [hreadied]
      exact (congrArg Attempt.isDone hagain).symm
    refine hunready found ⟨hdone, ?_⟩
    rw [hreadied]
    exact (hshape.find? _ _).trans hfind

/-- A directory that was ready is there the next time. -/
theorem readied_edited (hcourse : Course setting directory run)
    (hready : IsReady setting directory root) (hedited : run.tree.Includes edited) :
    edited.find? setting.working directory = some root ∧
      readied (setting.edited edited) directory = ⟨edited, true⟩ := by
  have hfind : edited.find? setting.working directory = some root :=
    (hcourse.includes.trans hedited).find? hready.2
  have hthere : (setting.edited edited).tree.find? (setting.edited edited).working directory =
    some root := hfind
  exact ⟨hfind, readied_of_find? hthere⟩

theorem isSound_edited (hsound : setting.IsSound) (hcourse : Course setting directory run)
    (htree : edited.IsTree) (hedited : run.tree.Includes edited) :
    (setting.edited edited).IsSound where
  isTree := htree
  isDirectory := ((isExtended_readied setting directory).includes.trans
    (hcourse.includes.trans hedited)).isDirectory hsound.isDirectory
  isFileName := hsound.isFileName

/-- As long as no files or directories come or go, a second run fails, however the first one went:
either files are found, or the same thing is in the way again. -/
theorem exists_error_again (hsound : setting.IsSound) (hcourse : Course setting directory run)
    (hshape : run.tree.SameShape edited) :
    ∃ failure, (Command.run (setting.edited edited) directory .init).journal.outcome =
      .error failure := by
  have htree : edited.IsTree := hshape.symm.isTree (hcourse.isTree hsound)
  cases course_init (isSound_edited hsound hcourse htree hshape.includes) directory with
  | unready _ _ hfailed => exact hfailed
  | occupied root _ _ _ houtcome => exact ⟨_, houtcome⟩
  | stuck root _ _ _ _ hfailed => exact hfailed
  | complete root hready hfree hdone _ _ =>
    exfalso
    have hfound := hready.2
    have hsame {found : Location} (hthere : IsReady setting directory found) :
        existing edited found = [] ∧ (extracted edited found).isDone = true := by
      obtain ⟨hfind, hreadied⟩ := readied_edited hcourse hthere hshape.includes
      rw [hreadied] at hfound hfree hdone
      obtain rfl : found = root := Option.some.inj (hfind.symm.trans hfound)
      exact ⟨hfree, hdone⟩
    cases hcourse with
    | unready hunready hfirst _ =>
      rw [hfirst] at hshape
      obtain ⟨hreadied, hstuck⟩ := not_isDone_of_unready hsound hunready hshape hready
      rw [hreadied] at hdone
      exact hstuck hdone
    | occupied found hthere hoccupied hfirst _ =>
      rw [hfirst] at hshape
      rw [existing_eq_of_sameShape hshape] at hoccupied
      exact hoccupied (hsame hthere).1
    | stuck found hthere _ hstuck hfirst _ =>
      obtain ⟨hempty, hdone⟩ := hsame hthere
      rw [hfirst] at hshape
      have hpaths : ∀ deed ∈ Example.deeds, Path.join found.path deed.path ≠ "" := fun deed hdeed =>
        Path.join_ne_empty _ (Example.isPlain_of_mem_deeds deed hdeed).ne_empty
      rcases Deed.exists?_or_not_isDone_again (isTree_readied hsound directory) hpaths hstuck hshape
        with ⟨file, hfile, hexists⟩ | hagain
      · rw [Example.filterMap_deeds] at hfile
        have hmem := (mem_existing_iff htree (hthere.isFileName hsound)).mpr ⟨hfile, hexists⟩
        rw [hempty] at hmem
        exact List.not_mem_nil hmem
      · exact hagain hdone
    | complete found hthere _ hfilled hfirst _ =>
      have hall := existing_of_isDone (hthere.isFileName hsound) hfilled
        (hfirst ▸ hshape.includes)
      exact Example.files_ne_nil (hall.symm.trans (hsame hthere).1)

end Again

/-- The locations of directories that may be new: they hold files of the example, or the way to the
directory itself goes back and leads through them. -/
def IsAround (setting : Setting) (directory : String) (root location : Location) : Prop :=
  (∃ file ∈ Example.files, location <+: placeOf root file.1) ∨
    ".." ∈ Path.steps directory ∧
      location ∈ through (startOf setting.working directory) (Path.steps directory)

/-- A tree in which the files of the example are new in a directory. Apart from them there are at
most some more directories. -/
structure IsFilled (isNew : Location → Prop) (root : Location) (tree filled : FileTree) : Prop where
  absent : ∀ file ∈ Example.files, tree.get? (placeOf root file.1) = none
  content : ∀ file ∈ Example.files,
    filled.content? (placeOf root file.1) = some file.2.toUTF8
  other : ∀ location, (∀ file ∈ Example.files, location ≠ placeOf root file.1) →
    filled.get? location = tree.get? location ∨
      tree.get? location = none ∧ filled.get? location = some .directory ∧ isNew location

/-- What a run that initializes a directory does to the files. -/
structure IsInitialization (setting : Setting) (directory : String) (run : Run) : Prop where
  /-- If some of the files are there, the run fails, names exactly these and changes nothing. -/
  refused : ∀ root, setting.tree.find? setting.working directory = some root →
    existing setting.tree root ≠ [] →
      run.tree = setting.tree ∧ run.journal.outcome = .error ⟨[.initializing], .filesExist
        (pathList (pathsIn root (existing setting.tree root)))⟩
  /-- If the directory is found only once those are created that are missing on a way that goes
  back, then the run fails for files that are there all the same, and names exactly these. Nothing
  is new but such directories. -/
  refused_behind : ∀ root, IsReady setting directory root →
    existing (readied setting directory).tree root ≠ [] →
      setting.tree.IsExtended (IsAround setting directory root) run.tree ∧
        run.journal.outcome = .error ⟨[.initializing], .filesExist
          (pathList (pathsIn root (existing (readied setting directory).tree root)))⟩
  /-- If none is there and nothing is in the way, the run succeeds. -/
  succeeds : ∀ root, IsReady setting directory root → Fits root →
    (readied setting directory).tree.isDirectory root = true →
    (readied setting directory).tree.kind? (placeOf root "harvest") ≠ some false →
    existing (readied setting directory).tree root = [] → run.journal.outcome = .ok ()
  /-- If the run succeeds, then the files of the example are what is new. -/
  filled : run.journal.outcome = .ok () → ∃ root,
    run.tree.find? setting.working directory = some root ∧
      IsFilled (IsAround setting directory root) root setting.tree run.tree
  /-- In every case, each file that was there has its content still. -/
  kept : ∀ location content, setting.tree.content? location = some content →
    run.tree.content? location = some content
  /-- If the run fails, then no file is new. Only where the directory is so deep down that the paths
  of some files are too long, others may have been written before. -/
  unwritten : (∀ root, run.tree.find? setting.working directory = some root → Fits root) →
    ∀ failure, run.journal.outcome = .error failure →
      ∀ location, run.tree.content? location = setting.tree.content? location
  /-- A second run fails in every case, and keeps what was edited meanwhile. -/
  again : ∀ edited, run.tree.SameShape edited →
    (∃ failure, (Command.run (setting.edited edited) directory .init).journal.outcome =
      .error failure) ∧
    ∀ location content, edited.content? location = some content →
      (Command.run (setting.edited edited) directory .init).tree.content? location = some content
  /-- After a success, a second run names all files of the example and changes nothing, whatever
  was edited or added meanwhile. -/
  settled : run.journal.outcome = .ok () → ∀ edited : FileTree, edited.IsTree →
    run.tree.Includes edited → ∃ root, edited.find? setting.working directory = some root ∧
      (Command.run (setting.edited edited) directory .init).tree = edited ∧
      (Command.run (setting.edited edited) directory .init).journal.outcome =
        .error ⟨[.initializing], .filesExist (pathList (pathsIn root Example.files))⟩

section Results

variable {run : Run}

/-- A run fails for the files that it finds in a directory that is ready, and names them. -/
theorem refused_of_isReady (hsound : setting.IsSound) (hready : IsReady setting directory root)
    (hexisting : existing (readied setting directory).tree root ≠ []) :
    (Command.run setting directory .init).tree = (readied setting directory).tree ∧
      (Command.run setting directory .init).journal.outcome = .error ⟨[.initializing], .filesExist
        (pathList (pathsIn root (existing (readied setting directory).tree root)))⟩ := by
  cases course_init hsound directory with
  | unready hunready _ _ => exact absurd hready (hunready root)
  | occupied found hfound _ htree houtcome =>
    obtain rfl := hready.unique hfound
    exact ⟨htree, houtcome⟩
  | stuck found hfound hfree _ _ _ =>
    obtain rfl := hready.unique hfound
    exact absurd hfree hexisting
  | complete found hfound hfree _ _ _ =>
    obtain rfl := hready.unique hfound
    exact absurd hfree hexisting

/-- Nothing has to be created for a directory that is there at the start. -/
theorem refused_of_find? (hsound : setting.IsSound)
    (hfind : setting.tree.find? setting.working directory = some root)
    (hexisting : existing setting.tree root ≠ []) :
    (Command.run setting directory .init).tree = setting.tree ∧
      (Command.run setting directory .init).journal.outcome = .error ⟨[.initializing], .filesExist
        (pathList (pathsIn root (existing setting.tree root)))⟩ := by
  have hreadied := readied_of_find? hfind
  have hrefused := refused_of_isReady hsound (isReady_of_find? hfind)
  rw [hreadied] at hrefused
  exact hrefused hexisting

/-- Nothing is in the way of a run if all paths fit, no file is in the place of the directory for
the example, and no file of the example exists. -/
theorem succeeds_of_isReady (hsound : setting.IsSound) (hready : IsReady setting directory root)
    (hfits : Fits root) (hdirectory : (readied setting directory).tree.isDirectory root = true)
    (hplace : (readied setting directory).tree.kind? (placeOf root "harvest") ≠ some false)
    (hfree : existing (readied setting directory).tree root = []) :
    (Command.run setting directory .init).journal.outcome = .ok () := by
  have hroot := hready.isFileName hsound
  have htree := isTree_readied hsound directory
  cases course_init hsound directory with
  | unready hunready _ _ => exact absurd hready (hunready root)
  | occupied found hfound hoccupied _ _ =>
    obtain rfl := hready.unique hfound
    exact absurd hfree hoccupied
  | stuck found hfound _ hstuck _ _ =>
    obtain rfl := hready.unique hfound
    have hmade := Deed.isDone_make hroot htree Example.isFileName_harvest
      hfits.harvest hdirectory hplace
    exact absurd (isDone_of_make hroot htree hfree hfits hmade) hstuck
  | complete found hfound _ _ _ houtcome => exact houtcome

theorem isAround_of_isPrefix {location : Location} (h : location <+: placeOf root "harvest") :
    IsAround setting directory root location := by
  obtain ⟨file, hfile⟩ := List.exists_mem_of_ne_nil _ Example.files_ne_nil
  rw [← dropLast_placeOf hfile] at h
  exact Or.inl ⟨file, hfile, h.trans (List.dropLast_prefix _)⟩

/-- The directories on the way to the one that is filled are around it, unless the way goes back. -/
theorem isAround_of_mem_through (hready : IsReady setting directory root) {location : Location}
    (h : location ∈ through (startOf setting.working directory) (Path.steps directory)) :
    IsAround setting directory root location := by
  by_cases hdots : ".." ∈ Path.steps directory
  · exact Or.inr ⟨hdots, h⟩
  · obtain ⟨_, hfollow, _⟩ := find?_eq_some_iff.mp hready.2
    have haround := (isPrefix_of_follow hdots hfollow).2 location h
    exact isAround_of_isPrefix (haround.trans (List.prefix_append _ _))

/-- On the way to the directory that is filled, all new directories are around it. -/
theorem isExtended_of_isReady (hready : IsReady setting directory root) :
    setting.tree.IsExtended (IsAround setting directory root) (readied setting directory).tree :=
  (isExtended_readied setting directory).mono fun _ hnew => isAround_of_mem_through hready hnew

/-- If none of the files was there and nothing was in the way, then all of them are there now. -/
theorem isFilled_extracted (hsound : setting.IsSound) (hready : IsReady setting directory root)
    (hexisting : existing (readied setting directory).tree root = [])
    (hdone : (extracted (readied setting directory).tree root).isDone = true) :
    IsFilled (IsAround setting directory root) root setting.tree
      (extracted (readied setting directory).tree root).tree := by
  have hroot := hready.isFileName hsound
  have hextended := isExtended_readied setting directory
  have hfiles := Deed.content?_of_isDone hroot Example.isPlain_of_mem_deeds
    (by rw [Example.filterMap_deeds]; exact Example.nodup_steps) hdone
  rw [Example.filterMap_deeds] at hfiles
  refine ⟨fun file hfile => ?_, fun file hfile => (hfiles file hfile).2, fun location helse => ?_⟩
  · refine hextended.get?_eq_none ?_
    exact get?_eq_none_of_existing hexisting file hfile (hfiles file hfile).1
  · rcases isChangedBy_extracted hroot (readied setting directory).tree location with
      hsame | ⟨hnone, hdirectory, path, hmake, haround⟩ | ⟨file, hfile, _, hplace, _⟩
    · rw [hsame]
      exact isExtended_of_isReady hready location
    · obtain rfl := Example.eq_harvest_of_make hmake
      exact Or.inr ⟨hextended.get?_eq_none hnone, hdirectory, isAround_of_isPrefix haround⟩
    · rw [Example.filterMap_deeds] at hfile
      exact absurd hplace (helse file hfile)

/-- A run that fails leaves at most directories behind. -/
theorem content?_of_error (hsound : setting.IsSound) (hcourse : Course setting directory run)
    (hfits : ∀ root, run.tree.find? setting.working directory = some root → Fits root)
    {failure : Failure} (hfailed : run.journal.outcome = .error failure) (location : Location) :
    run.tree.content? location = setting.tree.content? location := by
  rw [← (isExtended_readied setting directory).content? location]
  have hincludes := hcourse.includes
  cases hcourse with
  | unready hunready htree _ => rw [htree]
  | occupied root hready _ htree _ => rw [htree]
  | stuck root hready hfree hstuck htree _ =>
    have hfits := hfits root (hincludes.find? hready.2)
    rw [htree]
    exact content?_of_not_isDone (hready.isFileName hsound) (isTree_readied hsound directory) hfree
      hfits hstuck location
  | complete root hready _ _ _ houtcome =>
    rw [houtcome] at hfailed
    contradiction

/-- Whatever happened to the tree since then, the files of the example are found the next time. -/
theorem refused_of_ok (hsound : setting.IsSound) (hcourse : Course setting directory run)
    (hok : run.journal.outcome = .ok ()) {edited : FileTree} (htree : edited.IsTree)
    (hedited : run.tree.Includes edited) :
    ∃ root, edited.find? setting.working directory = some root ∧
      (Command.run (setting.edited edited) directory .init).tree = edited ∧
      (Command.run (setting.edited edited) directory .init).journal.outcome =
        .error ⟨[.initializing], .filesExist (pathList (pathsIn root Example.files))⟩ := by
  have hagain := isSound_edited hsound hcourse htree hedited
  obtain ⟨root, hready, _, hdone, hfilled⟩ := hcourse.exists_complete hok
  have hfind := (readied_edited hcourse hready hedited).1
  have hall : existing edited root = Example.files :=
    existing_of_isDone (hready.isFileName hsound) hdone (hfilled ▸ hedited)
  have hthere : existing (setting.edited edited).tree root ≠ [] := by
    rw [Setting.edited, hall]
    exact Example.files_ne_nil
  obtain ⟨hkept, hrefused⟩ := refused_of_find? hagain hfind hthere
  refine ⟨root, hfind, hkept, ?_⟩
  rw [hrefused, Setting.edited, hall]

end Results

def describedSetting : Setting where
  tree := ⟨[(["p"], .directory), (["p", "harvest"], .directory),
    (["p", "harvest", "project.yaml"], .file "name: P".toUTF8)]⟩
  working := ["p"]
  environment := ⟨.offline, none, none⟩
  time := "2022-06-01"

theorem isSound_described : describedSetting.IsSound where
  isTree := FileTree.isTree_of_entries (by decide)
  isDirectory := rfl
  isFileName := by
    have hsteps : Path.steps "p" = ["p"] := by decide +kernel
    have hname : Path.isName "p" = true := by decide +kernel
    refine List.forall_mem_singleton.mpr ?_
    exact Path.isFileName_of_mem_steps (by rw [hsteps]; exact List.mem_singleton_self _)
      (by decide) (by decide) hname

end Command

end ReleaseNotes
