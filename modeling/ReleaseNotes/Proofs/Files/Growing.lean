import ReleaseNotes.Proofs.Files.Following

/-!
What creating directories does to a tree. All that was there stays, whether the attempt is completed
or not, and what is new are directories that the names lead through. A second attempt comes to the
same end and finds nothing to create, since what decides is only where there are files and
directories.
-/

namespace ReleaseNotes

open Text

def FileEntry.isDirectory : FileEntry → Bool
  | .directory => true
  | .file _ => false

namespace FileTree

def kind? (tree : FileTree) (location : Location) : Option Bool :=
  (tree.get? location).map FileEntry.isDirectory

/-- Files and directories are at the same locations; the files may have other contents. -/
def SameShape (tree other : FileTree) : Prop :=
  ∀ location, tree.kind? location = other.kind? location

/-- What is a file stays a file, and what is a directory stays one. -/
def Includes (tree other : FileTree) : Prop :=
  ∀ location kind, tree.kind? location = some kind → other.kind? location = some kind

/-- A tree with more directories. -/
def IsExtended (isNew : Location → Prop) (tree other : FileTree) : Prop :=
  ∀ location, other.get? location = tree.get? location ∨
    tree.get? location = none ∧ other.get? location = some .directory ∧ isNew location

def through (location : Location) : List String → List Location
  | [] => []
  | name :: names =>
    if name = "." then through location names
    else if name = ".." then through location.dropLast names
    else (location ++ [name]) :: through (location ++ [name]) names

def startOf (working : Location) (path : String) : Location :=
  if Path.isAbsolute path then [] else working

variable {tree other later : FileTree} {location target : Location} {names : List String}

section Shapes

theorem kind?_eq_some_true_iff :
    tree.kind? location = some true ↔ tree.isDirectory location = true := by
  unfold kind? isDirectory
  cases tree.get? location with
  | none => simp
  | some entry => cases entry <;> simp [FileEntry.isDirectory]

theorem kind?_of_get? {entry : FileEntry} (h : tree.get? location = some entry) :
    tree.kind? location = some entry.isDirectory := by
  rw [kind?, h, Option.map_some]

theorem kind?_eq_none_iff : tree.kind? location = none ↔ tree.get? location = none :=
  Option.map_eq_none_iff

theorem exists_file_of_kind? (h : tree.kind? location = some false) :
    ∃ content, tree.get? location = some (.file content) := by
  obtain ⟨entry, hentry, hkind⟩ := Option.map_eq_some_iff.mp h
  cases entry with
  | directory => contradiction
  | file content => exact ⟨content, hentry⟩

theorem kind?_of_isSome (hsome : (tree.get? location).isSome = true)
    (hdirectory : ¬tree.isDirectory location = true) : tree.kind? location = some false := by
  obtain ⟨entry, hentry⟩ := Option.isSome_iff_exists.mp hsome
  cases entry with
  | directory => exact absurd (isDirectory_of_get? hentry) hdirectory
  | file content => exact kind?_of_get? hentry

theorem isSome_of_content? {content : ByteArray} (h : tree.content? location = some content) :
    (tree.get? location).isSome = true := by
  unfold content? at h
  split at h
  · rename_i hfile
    rw [hfile]
    rfl
  · contradiction

theorem SameShape.includes (h : tree.SameShape other) : tree.Includes other :=
  fun location _ hkind => (h location).symm.trans hkind

theorem SameShape.symm (h : tree.SameShape other) : other.SameShape tree :=
  fun location => (h location).symm

theorem Includes.trans (h : tree.Includes other) (hlater : other.Includes later) :
    tree.Includes later :=
  fun location kind hkind => hlater location kind (h location kind hkind)

theorem Includes.isDirectory (h : tree.Includes other)
    (hdirectory : tree.isDirectory location = true) : other.isDirectory location = true :=
  kind?_eq_some_true_iff.mp (h location true (kind?_eq_some_true_iff.mpr hdirectory))

theorem Includes.isSome (h : tree.Includes other)
    (hsome : (tree.get? location).isSome = true) : (other.get? location).isSome = true := by
  obtain ⟨entry, hentry⟩ := Option.isSome_iff_exists.mp hsome
  have hkind := h location entry.isDirectory (kind?_of_get? hentry)
  cases hother : other.get? location with
  | none => simp [kind?, hother] at hkind
  | some _ => rfl

/-- Ways that can be followed can still be followed when more is there. -/
theorem Includes.follow (h : tree.Includes other)
    (hfollow : tree.follow location names = some target) :
    other.follow location names = some target :=
  follow_of_directories (fun _ => h.isDirectory) hfollow

theorem Includes.find? {working : Location} {path : String} (h : tree.Includes other)
    (hfind : tree.find? working path = some location) :
    other.find? working path = some location := by
  obtain ⟨hlocate, hsome⟩ := Option.filter_eq_some_iff.mp hfind
  refine Option.filter_eq_some_iff.mpr ⟨?_, h.isSome hsome⟩
  unfold locate at hlocate ⊢
  split at hlocate
  · rename_i husable
    rw [if_pos husable]
    exact h.follow hlocate
  · contradiction

/-- Where a path leads does not depend on what is in the files. -/
theorem SameShape.find? (h : tree.SameShape other) (working : Location) (path : String) :
    tree.find? working path = other.find? working path := by
  apply Option.ext
  intro location
  exact ⟨h.includes.find?, h.symm.includes.find?⟩

theorem Includes.exists? {path : String} (h : tree.Includes other)
    (hexists : tree.exists? path = true) : other.exists? path = true := by
  obtain ⟨location, hlocation⟩ := Option.isSome_iff_exists.mp hexists
  rw [FileTree.exists?, h.find? hlocation]
  rfl

theorem SameShape.isTree (h : tree.SameShape other) (htree : other.IsTree) : tree.IsTree := by
  intro location name hsome
  exact h.symm.includes.isDirectory (htree location name (h.includes.isSome hsome))

end Shapes

section Extending

variable {isNew isLater : Location → Prop}

theorem IsExtended.refl (isNew : Location → Prop) (tree : FileTree) : tree.IsExtended isNew tree :=
  fun _ => Or.inl rfl

/-- Directories that are added one after another are added all at once. -/
theorem IsExtended.trans (h : tree.IsExtended isNew other) (hlater : other.IsExtended isNew later) :
    tree.IsExtended isNew later := by
  intro location
  rcases hlater location with hsame | ⟨hnone, hdirectory, hnew⟩
  · rw [hsame]
    exact h location
  · rcases h location with hsame | ⟨_, hsome, _⟩
    · exact Or.inr ⟨hsame.symm.trans hnone, hdirectory, hnew⟩
    · rw [hsome] at hnone
      contradiction

theorem IsExtended.mono (h : tree.IsExtended isNew other)
    (himp : ∀ location, isNew location → isLater location) : tree.IsExtended isLater other :=
  fun location => (h location).imp_right fun ⟨hnone, hdirectory, hnew⟩ =>
    ⟨hnone, hdirectory, himp location hnew⟩

theorem IsExtended.includes (h : tree.IsExtended isNew other) : tree.Includes other := by
  intro location kind hkind
  rcases h location with hsame | ⟨hnone, _, _⟩
  · rwa [kind?, hsame]
  · rw [kind?_eq_none_iff.mpr hnone] at hkind
    contradiction

/-- A new directory has no content, so all files are as before. -/
theorem IsExtended.content? (h : tree.IsExtended isNew other) (location : Location) :
    other.content? location = tree.content? location := by
  rcases h location with hsame | ⟨hnone, hdirectory, _⟩
  · rw [FileTree.content?, FileTree.content?, hsame]
  · rw [FileTree.content?, FileTree.content?, hdirectory, hnone]

theorem IsExtended.get?_eq_none (h : tree.IsExtended isNew other)
    (hnone : other.get? location = none) : tree.get? location = none := by
  rcases h location with hsame | ⟨hmissing, _⟩
  · rw [← hsame, hnone]
  · exact hmissing

theorem isExtended_set (hnew : isNew target) (htarget : target ≠ [])
    (hnone : tree.get? target = none) : tree.IsExtended isNew (tree.set target .directory) := by
  intro location
  rw [get?_set tree location .directory htarget]
  by_cases hlocation : location = target
  · rw [if_pos hlocation, hlocation]
    exact Or.inr ⟨hnone, rfl, hnew⟩
  · rw [if_neg hlocation]
    exact Or.inl rfl

theorem IsTree.isDirectory_dropLast (htree : tree.IsTree)
    (hdirectory : tree.isDirectory location = true) :
    tree.isDirectory location.dropLast = true := by
  rcases List.eq_nil_or_concat' location with rfl | ⟨front, name, rfl⟩
  · exact hdirectory
  · rw [List.dropLast_concat]
    apply htree front name
    exact isSome_of_isDirectory hdirectory

/-- Something new, or something in the place of a file, goes into a directory. -/
theorem IsTree.set {name : String} (htree : tree.IsTree)
    (hdirectory : tree.isDirectory location = true)
    (hfree : tree.isDirectory (location ++ [name]) = false) (entry : FileEntry) :
    (tree.set (location ++ [name]) entry).IsTree := by
  have hnext : location ++ [name] ≠ [] := by simp
  have hkeeps {directory : Location} (h : tree.isDirectory directory = true) :
      (tree.set (location ++ [name]) entry).isDirectory directory = true := by
    have hne : directory ≠ location ++ [name] := by
      rintro rfl
      rw [hfree] at h
      contradiction
    apply isDirectory_of_get?
    rw [get?_set tree directory entry hnext, if_neg hne]
    exact get?_of_isDirectory h
  intro around inner hsome
  rw [get?_set tree _ entry hnext] at hsome
  split at hsome
  · rename_i heq
    obtain rfl := List.append_inj_left' heq rfl
    exact hkeeps hdirectory
  · exact hkeeps (htree around inner hsome)

end Extending

section Attempting

/-- Making directories along a way adds some of those on the way, even if the attempt fails. -/
theorem isExtended_attemptAlong (tree : FileTree) (location : Location) (names : List String) :
    tree.IsExtended (· ∈ through location names) (tree.attemptAlong location names).tree := by
  fun_induction attemptAlong tree location names with
  | case1 tree location => exact .refl _ tree
  | case2 tree location names ih => rwa [through, if_pos rfl]
  | case3 tree location names hdot ih => rwa [through, if_neg hdot, if_pos rfl]
  | case4 tree location name names hdot hdots hname => exact .refl _ tree
  | case5 tree location name names hdot hdots hname next hnone hend => exact .refl _ tree
  | case6 tree location name names hdot hdots hname next hnone hend ih =>
    rw [through, if_neg hdot, if_neg hdots]
    have hset : tree.IsExtended (· ∈ next :: through next names) (tree.set next .directory) :=
      isExtended_set List.mem_cons_self (by simp [next]) hnone
    exact hset.trans (ih.mono fun _ => List.mem_cons_of_mem next)
  | case7 tree location name names hdot hdots hname next hsome ih =>
    rw [through, if_neg hdot, if_neg hdots]
    exact ih.mono fun _ => List.mem_cons_of_mem next
  | case8 tree location name names hdot hdots hname next content hfile => exact .refl _ tree

theorem isTree_attemptAlong (htree : tree.IsTree) (hdirectory : tree.isDirectory location = true)
    (names : List String) : (tree.attemptAlong location names).tree.IsTree := by
  fun_induction attemptAlong tree location names with
  | case1 tree location => exact htree
  | case2 tree location names ih => exact ih htree hdirectory
  | case3 tree location names hdot ih => exact ih htree (htree.isDirectory_dropLast hdirectory)
  | case4 tree location name names hdot hdots hname => exact htree
  | case5 tree location name names hdot hdots hname next hnone hend => exact htree
  | case6 tree location name names hdot hdots hname next hnone hend ih =>
    have hfree : tree.isDirectory next = false := by rw [isDirectory, hnone]
    exact ih (htree.set hdirectory hfree .directory) (isDirectory_set tree (by simp [next]))
  | case7 tree location name names hdot hdots hname next hsome ih =>
    exact ih htree (isDirectory_of_get? hsome)
  | case8 tree location name names hdot hdots hname next content hfile => exact htree

/-- If nothing was in the way, then the names lead to a directory. -/
theorem exists_follow_of_attemptAlong (htree : tree.IsTree)
    (hdirectory : tree.isDirectory location = true)
    (hdone : (tree.attemptAlong location names).isDone = true) :
    ∃ target, (tree.attemptAlong location names).tree.follow location names = some target ∧
      (tree.attemptAlong location names).tree.isDirectory target = true := by
  fun_induction attemptAlong tree location names with
  | case1 tree location => exact ⟨location, rfl, hdirectory⟩
  | case2 tree location names ih =>
    have hthere := (isExtended_attemptAlong tree location names).includes.isDirectory hdirectory
    rw [follow, if_pos hthere, if_pos rfl]
    exact ih htree hdirectory hdone
  | case3 tree location names hdot ih =>
    have hthere := (isExtended_attemptAlong tree location.dropLast names).includes.isDirectory
      hdirectory
    rw [follow, if_pos hthere, if_neg hdot, if_pos rfl]
    exact ih htree (htree.isDirectory_dropLast hdirectory) hdone
  | case4 tree location name names hdot hdots hname => contradiction
  | case5 tree location name names hdot hdots hname next hnone hend => contradiction
  | case6 tree location name names hdot hdots hname next hnone hend ih =>
    have hnext : next ≠ [] := by simp [next]
    have hfree : tree.isDirectory next = false := by rw [isDirectory, hnone]
    have hset : tree.IsExtended (fun _ => True) (tree.set next .directory) :=
      isExtended_set trivial hnext hnone
    have hthere := (hset.includes.trans
      (isExtended_attemptAlong (tree.set next .directory) next names).includes).isDirectory
        hdirectory
    rw [follow, if_pos hthere, if_neg hdot, if_neg hdots, if_pos (by simpa using hname)]
    exact ih (htree.set hdirectory hfree .directory) (isDirectory_set tree hnext) hdone
  | case7 tree location name names hdot hdots hname next hsome ih =>
    have hthere := (isExtended_attemptAlong tree next names).includes.isDirectory hdirectory
    rw [follow, if_pos hthere, if_neg hdot, if_neg hdots, if_pos (by simpa using hname)]
    exact ih htree (isDirectory_of_get? hsome) hdone
  | case8 tree location name names hdot hdots hname next content hfile => contradiction

/-- A second attempt changes nothing and comes to the same end. -/
theorem attemptAlong_again (h : other.SameShape (tree.attemptAlong location names).tree) :
    other.attemptAlong location names = ⟨other, (tree.attemptAlong location names).isDone⟩ := by
  fun_induction attemptAlong tree location names with
  | case1 tree location => rfl
  | case2 tree location names ih =>
    rw [attemptAlong, if_pos rfl]
    exact ih h
  | case3 tree location names hdot ih =>
    rw [attemptAlong, if_neg hdot, if_pos rfl]
    exact ih h
  | case4 tree location name names hdot hdots hname =>
    rw [attemptAlong, if_neg hdot, if_neg hdots, if_pos hname]
  | case5 tree location name names hdot hdots hname next hnone hend =>
    have hstill : other.get? next = none :=
      kind?_eq_none_iff.mp ((h next).trans (kind?_eq_none_iff.mpr hnone))
    rw [attemptAlong, if_neg hdot, if_neg hdots, if_neg hname]
    simp only [next] at hstill
    simp only [hstill]
    exact if_pos hend
  | case6 tree location name names hdot hdots hname next hnone hend ih =>
    have hcreated : (tree.set next .directory).isDirectory next = true :=
      isDirectory_set tree (by simp [next])
    have hthere := get?_of_isDirectory (h.symm.includes.isDirectory
      ((isExtended_attemptAlong (tree.set next .directory) next names).includes.isDirectory
        hcreated))
    rw [attemptAlong, if_neg hdot, if_neg hdots, if_neg hname]
    simp only [next] at hthere
    simp only [hthere]
    exact ih h
  | case7 tree location name names hdot hdots hname next hsome ih =>
    have hthere := get?_of_isDirectory (h.symm.includes.isDirectory
      ((isExtended_attemptAlong tree next names).includes.isDirectory (isDirectory_of_get? hsome)))
    rw [attemptAlong, if_neg hdot, if_neg hdots, if_neg hname]
    simp only [next] at hthere
    simp only [hthere]
    exact ih h
  | case8 tree location name names hdot hdots hname next content hfile =>
    obtain ⟨content, hstill⟩ := exists_file_of_kind? ((h next).trans (kind?_of_get? hfile))
    rw [attemptAlong, if_neg hdot, if_neg hdots, if_neg hname]
    simp only [next] at hstill
    simp only [hstill]

end Attempting

section Leading

theorem through_isPrefix (location : Location) (first second : List String) :
    through location first <+: through location (first ++ second) := by
  induction first generalizing location with
  | nil => exact List.nil_prefix
  | cons name first ih =>
    rw [List.cons_append, through, through]
    split_ifs
    · exact ih location
    · exact ih location.dropLast
    · exact (List.prefix_cons_inj _).mpr (ih (location ++ [name]))

/-- Names that never go back only lead through what is around their end. -/
theorem isPrefix_of_follow (hdots : ".." ∉ names) (h : tree.follow location names = some target) :
    location <+: target ∧ ∀ place ∈ through location names, place <+: target := by
  induction names generalizing location with
  | nil =>
    obtain rfl := Option.some.inj h
    exact ⟨List.prefix_rfl, nofun⟩
  | cons name names ih =>
    obtain ⟨hne, hdots⟩ := List.ne_and_not_mem_of_not_mem_cons hdots
    rw [follow, if_pos (isDirectory_of_follow_cons h)] at h
    rw [through]
    by_cases hdot : name = "."
    · rw [if_pos hdot] at h ⊢
      exact ih hdots h
    rw [if_neg hdot, if_neg hne.symm] at h ⊢
    split at h
    · obtain ⟨hnext, hall⟩ := ih hdots h
      exact ⟨(List.prefix_append location [name]).trans hnext,
        List.forall_mem_cons.mpr ⟨hnext, hall⟩⟩
    · contradiction

/-- Whatever names lead to is in a directory, or may be put into one. -/
theorem IsTree.isDirectory_dropLast_of_follow (htree : tree.IsTree)
    (hdirectory : tree.isDirectory location.dropLast = true)
    (h : tree.follow location names = some target) : tree.isDirectory target.dropLast = true := by
  induction names generalizing location with
  | nil =>
    obtain rfl := Option.some.inj h
    exact hdirectory
  | cons name names ih =>
    have hthere := isDirectory_of_follow_cons h
    rw [FileTree.follow, if_pos hthere] at h
    split at h
    · exact ih hdirectory h
    split at h
    · exact ih (htree.isDirectory_dropLast hdirectory) h
    split at h
    · exact ih (by rwa [List.dropLast_concat]) h
    · contradiction

theorem follow_dots (hdirectory : tree.isDirectory location = true)
    (hdots : ∀ name ∈ names, name = ".") : tree.follow location names = some location := by
  induction names with
  | nil => rfl
  | cons name names ih =>
    obtain ⟨hdot, hdots⟩ := List.forall_mem_cons.mp hdots
    rw [follow, if_pos hdirectory, if_pos hdot]
    exact ih hdots

/-- What is followed are dots and names that something can have. -/
theorem isName_of_follow (h : tree.follow location names = some target) :
    ∀ name ∈ names, name = "." ∨ name = ".." ∨ Path.isName name = true := by
  induction names generalizing location with
  | nil => exact nofun
  | cons name names ih =>
    rw [follow, if_pos (isDirectory_of_follow_cons h)] at h
    rw [List.forall_mem_cons]
    split at h
    · rename_i hdot
      exact ⟨Or.inl hdot, ih h⟩
    split at h
    · rename_i hdots
      exact ⟨Or.inr (Or.inl hdots), ih h⟩
    split at h
    · rename_i hname
      exact ⟨Or.inr (Or.inr hname), ih h⟩
    · contradiction

end Leading

section Directories

variable {working : Location} {path : String}

theorem locate_eq_some_iff : tree.locate working path = some location ↔
    Path.isUsable path = true ∧
      tree.follow (startOf working path) (Path.steps path) = some location := by
  rw [locate, startOf]
  by_cases husable : Path.isUsable path = true
  · simp [husable]
  · simp [husable]

/-- A path finds a location if it leads there and something is there. -/
theorem find?_eq_some_iff : tree.find? working path = some location ↔
    Path.isUsable path = true ∧
      tree.follow (startOf working path) (Path.steps path) = some location ∧
      (tree.get? location).isSome = true := by
  rw [find?, Option.filter_eq_some_iff, locate_eq_some_iff, and_assoc]

/-- A path of which directories can be created at all: it can be followed, and it is free of the
character that ends a path. -/
def IsCreatable (path : String) : Prop :=
  path ≠ "" ∧ Path.isUsable path = true ∧ '\x00' ∉ path.toList

theorem attemptDirectories_of_isCreatable (h : IsCreatable path) (tree : FileTree)
    (working : Location) : tree.attemptDirectories working path =
      tree.attemptAlong (startOf working path) (Path.steps (Path.withoutSlashes path)) := by
  obtain ⟨hpath, husable, hzero⟩ := h
  rw [attemptDirectories, if_neg hpath, startOf, if_neg]
  simp [husable, hzero]

/-- Otherwise nothing is created, and only the empty path counts as done. -/
theorem attemptDirectories_of_not_isCreatable (h : ¬IsCreatable path) (tree : FileTree)
    (working : Location) :
    tree.attemptDirectories working path = ⟨tree, decide (path = "")⟩ := by
  by_cases hpath : path = ""
  · rw [attemptDirectories, if_pos hpath, decide_eq_true hpath]
  · rw [attemptDirectories, if_neg hpath, if_pos, decide_eq_false hpath]
    by_contra hguard
    refine h ⟨hpath, ?_⟩
    simpa using hguard

theorem isExtended_attemptDirectories (tree : FileTree) (working : Location) (path : String) :
    tree.IsExtended (· ∈ through (startOf working path) (Path.steps path))
      (tree.attemptDirectories working path).tree := by
  by_cases hpath : IsCreatable path
  · obtain ⟨dots, hsteps, _⟩ := Path.exists_steps_withoutSlashes path
    have hthrough := through_isPrefix (startOf working path)
      (Path.steps (Path.withoutSlashes path)) dots
    rw [← hsteps] at hthrough
    rw [attemptDirectories_of_isCreatable hpath]
    exact (isExtended_attemptAlong tree _ _).mono fun _ hnew => hthrough.mem hnew
  · rw [attemptDirectories_of_not_isCreatable hpath]
    exact .refl _ tree

theorem isDirectory_startOf (hworking : tree.isDirectory working = true) (path : String) :
    tree.isDirectory (startOf working path) = true := by
  unfold startOf
  split
  · rfl
  · exact hworking

theorem isTree_attemptDirectories (htree : tree.IsTree)
    (hworking : tree.isDirectory working = true) (path : String) :
    (tree.attemptDirectories working path).tree.IsTree := by
  by_cases hpath : IsCreatable path
  · rw [attemptDirectories_of_isCreatable hpath]
    exact isTree_attemptAlong htree (isDirectory_startOf hworking path) _
  · rw [attemptDirectories_of_not_isCreatable hpath]
    exact htree

/-- Once directories have been attempted, a second attempt changes nothing and ends the same way. -/
theorem attemptDirectories_again
    (h : other.SameShape (tree.attemptDirectories working path).tree) :
    other.attemptDirectories working path =
      ⟨other, (tree.attemptDirectories working path).isDone⟩ := by
  by_cases hpath : IsCreatable path
  · rw [attemptDirectories_of_isCreatable hpath] at h ⊢
    rw [attemptDirectories_of_isCreatable hpath]
    exact attemptAlong_again h
  · rw [attemptDirectories_of_not_isCreatable hpath, attemptDirectories_of_not_isCreatable hpath]

/-- A path whose directories could be created leads to one now. -/
theorem exists_find?_of_attemptDirectories (htree : tree.IsTree)
    (hworking : tree.isDirectory working = true) (hpath : path ≠ "")
    (hdone : (tree.attemptDirectories working path).isDone = true) :
    ∃ target, (tree.attemptDirectories working path).tree.find? working path = some target ∧
      (tree.attemptDirectories working path).tree.isDirectory target = true := by
  by_cases hcreatable : IsCreatable path
  · rw [attemptDirectories_of_isCreatable hcreatable] at hdone ⊢
    obtain ⟨target, hfollow, hdirectory⟩ :=
      exists_follow_of_attemptAlong htree (isDirectory_startOf hworking path) hdone
    obtain ⟨dots, hsteps, hdots⟩ := Path.exists_steps_withoutSlashes path
    have hlead : (tree.attemptAlong (startOf working path)
        (Path.steps (Path.withoutSlashes path))).tree.follow (startOf working path)
          (Path.steps path) = some target := by
      rw [hsteps, follow_append, hfollow]
      exact follow_dots hdirectory hdots
    exact ⟨target, find?_eq_some_iff.mpr
      ⟨hcreatable.2.1, hlead, isSome_of_isDirectory hdirectory⟩, hdirectory⟩
  · rw [attemptDirectories_of_not_isCreatable hcreatable] at hdone
    exact absurd (of_decide_eq_true hdone) hpath

/-- A path that finds something is one that directories can be created for. -/
theorem isCreatable_of_find? (h : tree.find? working path = some target) : IsCreatable path := by
  obtain ⟨husable, hfollow, _⟩ := find?_eq_some_iff.mp h
  refine ⟨?_, husable, fun hzero => ?_⟩
  · rintro rfl
    simp [Path.isUsable] at husable
  · have hslash : ('\x00' == '/') = false := by decide
    obtain ⟨part, hpart, hmem⟩ : ∃ part ∈ path.toList.splitOn '/', '\x00' ∈ part :=
      exists_mem_splitOnP hzero hslash
    have hname : String.ofList part ∈ Path.steps path := by
      refine List.mem_map.mpr ⟨String.ofList part, List.mem_map_of_mem hpart, if_neg ?_⟩
      intro hempty
      rw [← String.toList_inj, String.toList_ofList] at hempty
      simp [hempty] at hmem
    -- The character is in a name that something would have to have.
    rcases isName_of_follow hfollow _ hname with hdot | hdots | hisName
    · rw [← String.toList_inj, String.toList_ofList] at hdot
      simp [hdot] at hmem
    · rw [← String.toList_inj, String.toList_ofList] at hdots
      simp [hdots] at hmem
    · simp [Path.isName, hmem] at hisName

/-- Nothing is in the way of a path that leads to a directory, and nothing is missing. -/
theorem attemptDirectories_of_find? (h : tree.find? working path = some target)
    (hdirectory : tree.isDirectory target = true) :
    tree.attemptDirectories working path = ⟨tree, true⟩ := by
  obtain ⟨_, hfollow, _⟩ := find?_eq_some_iff.mp h
  obtain ⟨dots, hsteps, hdots⟩ := Path.exists_steps_withoutSlashes path
  rw [hsteps, follow_append, Option.bind_eq_some_iff] at hfollow
  obtain ⟨inner, hinner, houter⟩ := hfollow
  have hthere : tree.isDirectory inner = true := by
    cases dots with
    | nil =>
      obtain rfl := Option.some.inj houter
      exact hdirectory
    | cons name dots => exact isDirectory_of_follow_cons houter
  rw [attemptDirectories_of_isCreatable (isCreatable_of_find? h), ← List.append_nil (Path.steps _),
    attemptAlong_append hinner hthere]
  rfl

end Directories

end FileTree

end ReleaseNotes
