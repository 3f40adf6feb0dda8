import Mathlib.Data.List.Induction
import ReleaseNotes.Proofs.Files.Growing

/-!
Names on the way to a place. A location is read back from its path if its names are names of files,
and a path down through such names leads to one place, whatever there is in the tree. It leads there
exactly if everything around the place is a directory.
-/

namespace ReleaseNotes

open Text

namespace Path

variable {name path : String} {names : List String}

structure IsPlain (path : String) : Prop where
  relative : isAbsolute path = false
  isFileName : ∀ name ∈ steps path, IsFileName name

theorem slash_notMem_of_mem_steps (h : name ∈ steps path) : '/' ∉ name.toList ∧ name ≠ "" := by
  obtain ⟨part, hpart, hname⟩ := List.mem_map.mp h
  split at hname
  · subst hname
    exact ⟨by decide, by decide⟩
  · rename_i hempty
    subst hname
    exact ⟨fun hslash => (mem_of_mem_splitAt hpart hslash).2 rfl, hempty⟩

theorem IsFileName.slash_notMem (h : IsFileName name) : '/' ∉ name.toList ∧ name ≠ "" := by
  have hmem : name ∈ Path.steps name := by
    rw [h.steps]
    exact List.mem_singleton_self name
  exact slash_notMem_of_mem_steps hmem

theorem isFileName_of_mem_steps (h : name ∈ steps path) (hdot : name ≠ ".") (hdots : name ≠ "..")
    (hname : isName name = true) : IsFileName name := by
  obtain ⟨hslash, hempty⟩ := slash_notMem_of_mem_steps h
  have hparts : ∀ part ∈ [name], '/' ∉ part.toList := List.forall_mem_singleton.mpr hslash
  have hsplit : splitAt '/' (joinWith "/" [name]) = [name] :=
    splitAt_joinWith (by decide) hparts (by simp)
  have hjoin : joinWith "/" [name] = name := by simp [joinWith]
  rw [hjoin] at hsplit
  refine ⟨?_, hname, ?_, hdot, hdots⟩
  · rw [steps, hsplit, List.map_singleton, if_neg hempty]
  · rw [isAbsolute, beq_eq_false_iff_ne]
    exact fun hhead => hslash (List.mem_of_mem_head? hhead)

/-- File names joined by slashes are taken apart into the same names. -/
theorem steps_joinWith (hnames : ∀ name ∈ names, IsFileName name) (hne : names ≠ []) :
    steps (joinWith "/" names) = names := by
  have hslash : "/".toList = ['/'] := by decide
  have hkept : names.map (fun name => if name = "" then "." else name) = names.map id :=
    List.map_congr_left fun name hname => if_neg (hnames name hname).slash_notMem.2
  rw [steps, splitAt_joinWith hslash (fun name hname => (hnames name hname).slash_notMem.1) hne,
    hkept, List.map_id]

theorem steps_ne_nil (path : String) : steps path ≠ [] := by
  simp [steps, splitAt, List.splitOn, List.splitOnP_ne_nil]

theorem IsPlain.ne_empty (h : IsPlain path) : path ≠ "" := by
  rintro rfl
  have hdot : steps "" = ["."] := by decide +kernel
  exact (h.isFileName "." (by rw [hdot]; exact List.mem_singleton_self _)).ne_dot rfl

theorem IsFileName.isPlain (h : IsFileName name) : IsPlain name where
  relative := h.relative
  isFileName := by
    rw [h.steps]
    exact List.forall_mem_singleton.mpr h

/-- A path stays short enough if what is put behind it gets no longer. -/
theorem isUsable_join_of_size_le {base other : String} (hbase : base ≠ "") (hpath : IsPlain path)
    (hother : IsPlain other) (hsize : other.utf8ByteSize ≤ path.utf8ByteSize)
    (h : isUsable (join base path) = true) : isUsable (join base other) = true := by
  obtain ⟨front, _, hjoin⟩ := exists_front_of_join hbase
  rw [isUsable, Bool.and_eq_true, bne_iff_ne, decide_eq_true_eq] at h ⊢
  refine ⟨join_ne_empty base hother.ne_empty, ?_⟩
  rw [hjoin path hpath.relative, String.utf8ByteSize_append] at h
  rw [hjoin other hother.relative, String.utf8ByteSize_append]
  omega

/-- The way to something below a location goes through the names of the location. -/
theorem steps_join {root : Location} (hroot : ∀ name ∈ root, IsFileName name)
    (hpath : IsPlain path) : steps (join root.path path) = "." :: (root ++ steps path) := by
  have hempty : steps "" = ["."] := by decide +kernel
  by_cases hne : root = []
  · subst hne
    have hjoin : join (Location.path []) path = "" ++ "/" ++ path := by
      simp [Location.path, joinWith, join, hpath.relative]
    rw [hjoin, steps_append, hempty]
    rfl
  · have hsteps : steps root.path = "." :: root := by
      have hsplit : root.path = "" ++ "/" ++ joinWith "/" root := by simp [Location.path]
      rw [hsplit, steps_append, hempty, steps_joinWith hroot hne]
      rfl
    have hbase : root.path ≠ "" := by simp [Location.path]
    obtain ⟨front, hfront, hjoin⟩ := exists_front_of_join hbase
    rw [hjoin path hpath.relative, steps_append]
    rcases hfront with rfl | hfront
    · rw [hsteps]
      rfl
    · -- A path that ends with a slash would have a dot for its last name.
      have hlast : (steps root.path).getLast? = some "." := by
        have hend : front ++ "/" = front ++ "/" ++ "" := by simp
        rw [hfront, hend, steps_append, hempty]
        simp
      obtain ⟨others, last, rfl⟩ := List.eq_nil_or_concat' root |>.resolve_left hne
      rw [hsteps, ← List.cons_append, List.getLast?_concat] at hlast
      have hdot : last = "." := Option.some.inj hlast
      exact absurd hdot (hroot last (by simp)).ne_dot

end Path

namespace FileTree

open ReleaseNotes.Path (IsFileName IsPlain)

variable {tree : FileTree} {location target root : Location} {names : List String} {path : String}

/-- Following file names only ever goes further down. -/
theorem follow_eq_append (hnames : ∀ name ∈ names, IsFileName name)
    (h : tree.follow location names = some target) : target = location ++ names := by
  induction names generalizing location with
  | nil =>
    obtain rfl := Option.some.inj h
    exact (List.append_nil location).symm
  | cons name names ih =>
    obtain ⟨hname, hnames⟩ := List.forall_mem_cons.mp hnames
    rw [follow, if_pos (isDirectory_of_follow_cons h), if_neg hname.ne_dot, if_neg hname.ne_dots,
      if_pos hname.isName] at h
    rw [ih hnames h, List.append_assoc]
    rfl

/-- There are directories all the way above what is there. -/
theorem IsTree.isDirectory_of_append (htree : tree.IsTree) (hne : names ≠ [])
    (h : (tree.get? (location ++ names)).isSome = true) : tree.isDirectory location = true := by
  induction names using List.reverseRecOn with
  | nil => contradiction
  | append_singleton names name ih =>
    rw [← List.append_assoc] at h
    have hparent := htree _ _ h
    rcases names with _ | ⟨first, names⟩
    · rwa [List.append_nil] at hparent
    · exact ih (by simp) (isSome_of_isDirectory hparent)

/-- Names lead to whatever is there. -/
theorem follow_of_isSome (htree : tree.IsTree) (hnames : ∀ name ∈ names, IsFileName name)
    (h : (tree.get? (location ++ names)).isSome = true) :
    tree.follow location names = some (location ++ names) := by
  induction names generalizing location with
  | nil => rw [follow, List.append_nil]
  | cons name names ih =>
    obtain ⟨hname, hnames⟩ := List.forall_mem_cons.mp hnames
    have hsplit : location ++ name :: names = location ++ [name] ++ names := by simp
    rw [follow, if_pos (htree.isDirectory_of_append (by simp) h), if_neg hname.ne_dot,
      if_neg hname.ne_dots, if_pos hname.isName, hsplit]
    exact ih hnames (hsplit ▸ h)

/-- The names lead to a place in a directory, whether there is something or not. -/
theorem follow_of_isDirectory_dropLast (htree : tree.IsTree)
    (hnames : ∀ name ∈ names, IsFileName name) (h : tree.isDirectory names.dropLast = true) :
    tree.follow [] names = some names := by
  rcases List.eq_nil_or_concat' names with rfl | ⟨front, name, rfl⟩
  · rfl
  · rw [List.forall_mem_append, List.forall_mem_singleton] at hnames
    rw [List.dropLast_concat] at h
    have hfront : tree.follow [] front = some ([] ++ front) :=
      follow_of_isSome htree hnames.1 (isSome_of_isDirectory h)
    rw [follow_append, hfront]
    exact follow_name h hnames.2.ne_dot hnames.2.ne_dots hnames.2.isName

/-- Where names lead to from a location with names of files has such names too. -/
theorem isFileName_of_follow (hlocation : ∀ name ∈ location, IsFileName name)
    (hsteps : ∀ name ∈ names, name ∈ Path.steps path)
    (h : tree.follow location names = some target) : ∀ name ∈ target, IsFileName name := by
  induction names generalizing location with
  | nil =>
    obtain rfl := Option.some.inj h
    exact hlocation
  | cons name names ih =>
    obtain ⟨hstep, hsteps⟩ := List.forall_mem_cons.mp hsteps
    rw [follow, if_pos (isDirectory_of_follow_cons h)] at h
    split at h
    · exact ih hlocation hsteps h
    split at h
    · exact ih (fun inner hinner => hlocation inner (List.dropLast_subset location hinner)) hsteps h
    split at h
    · rename_i hdot hdots hname
      refine ih ?_ hsteps h
      rw [List.forall_mem_append, List.forall_mem_singleton]
      exact ⟨hlocation, Path.isFileName_of_mem_steps hstep hdot hdots hname⟩
    · contradiction

theorem isFileName_of_find? {working : Location} (hworking : ∀ name ∈ working, IsFileName name)
    (h : tree.find? working path = some target) : ∀ name ∈ target, IsFileName name := by
  obtain ⟨_, hfollow, _⟩ := find?_eq_some_iff.mp h
  refine isFileName_of_follow ?_ (fun _ hname => hname) hfollow
  unfold startOf
  split
  · exact nofun
  · exact hworking

/-- The names of files only lead down. -/
theorem isPrefix_of_mem_through (hnames : ∀ name ∈ names, IsFileName name)
    (h : target ∈ through location names) : target <+: location ++ names := by
  induction names generalizing location with
  | nil => contradiction
  | cons name names ih =>
    obtain ⟨hname, hnames⟩ := List.forall_mem_cons.mp hnames
    have hsplit : location ++ name :: names = location ++ [name] ++ names := by simp
    rw [through, if_neg hname.ne_dot, if_neg hname.ne_dots] at h
    rw [hsplit]
    rcases List.mem_cons.mp h with rfl | h
    · exact List.prefix_append _ names
    · exact ih hnames h

def placeOf (root : Location) (path : String) : Location :=
  root ++ Path.steps path

theorem placeOf_ne_nil (root : Location) (path : String) : placeOf root path ≠ [] := by
  simp [placeOf, Path.steps_ne_nil]

section Places

variable (hroot : ∀ name ∈ root, IsFileName name) (hpath : IsPlain path)

include hroot hpath

theorem isFileName_of_mem_placeOf : ∀ name ∈ placeOf root path, IsFileName name := by
  rw [placeOf, List.forall_mem_append]
  exact ⟨hroot, hpath.isFileName⟩

/-- From a directory, a plain path leads to its place, if its directories are there and the path is
not too long. -/
theorem locate_join (tree : FileTree) : tree.locate [] (Path.join root.path path) =
    if Path.isUsable (Path.join root.path path) then tree.follow [] (placeOf root path)
    else none := by
  have hdirectory : tree.isDirectory [] = true := rfl
  rw [locate, ite_self, Path.steps_join hroot hpath, follow, if_pos hdirectory, if_pos rfl, placeOf]

theorem eq_placeOf_of_locate (h : tree.locate [] (Path.join root.path path) = some target) :
    Path.isUsable (Path.join root.path path) = true ∧ target = placeOf root path := by
  rw [locate_join hroot hpath] at h
  split at h
  · rename_i husable
    have hplace : target = [] ++ placeOf root path :=
      follow_eq_append (isFileName_of_mem_placeOf hroot hpath) h
    exact ⟨husable, hplace⟩
  · contradiction

/-- Something at a place is found by the path of the place, unless that is too long. -/
theorem find?_join (htree : tree.IsTree) :
    tree.find? [] (Path.join root.path path) = some target ↔
      Path.isUsable (Path.join root.path path) = true ∧
        (tree.get? (placeOf root path)).isSome = true ∧ target = placeOf root path := by
  rw [find?, Option.filter_eq_some_iff]
  constructor
  · rintro ⟨hlocate, hsome⟩
    obtain ⟨husable, rfl⟩ := eq_placeOf_of_locate hroot hpath hlocate
    exact ⟨husable, hsome, rfl⟩
  · rintro ⟨husable, hsome, rfl⟩
    refine ⟨?_, hsome⟩
    rw [locate_join hroot hpath, if_pos husable]
    exact follow_of_isSome htree (isFileName_of_mem_placeOf hroot hpath) hsome

/-- A plain path exists if something is at its place and it is not too long. -/
theorem exists?_join (htree : tree.IsTree) : tree.exists? (Path.join root.path path) =
    (Path.isUsable (Path.join root.path path) && (tree.get? (placeOf root path)).isSome) := by
  rw [Bool.eq_iff_iff, Bool.and_eq_true, exists?, Option.isSome_iff_exists]
  simp only [find?_join hroot hpath htree]
  constructor
  · rintro ⟨_, husable, hsome, _⟩
    exact ⟨husable, hsome⟩
  · rintro ⟨husable, hsome⟩
    exact ⟨_, husable, hsome, rfl⟩

end Places

end FileTree

end ReleaseNotes
