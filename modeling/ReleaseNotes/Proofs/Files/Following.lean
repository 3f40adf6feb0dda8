import ReleaseNotes.Files.Tree
import ReleaseNotes.Proofs.Text.Trimming
import ReleaseNotes.Proofs.Traversal

/-!
What paths lead to. A path that is joined from parts is followed part by part, directories stay
where they are when something is added to a tree, and creating the directories of a path changes
nothing as far as they are there. A file is written where its path leads to.
-/

namespace ReleaseNotes

open Text

namespace Path

variable {base : String}

theorem steps_append (first second : String) :
    steps (first ++ "/" ++ second) = steps first ++ steps second := by
  have hchars : (first ++ "/" ++ second).toList = first.toList ++ '/' :: second.toList := by simp
  have hparts : (first ++ "/" ++ second).toList.splitOn '/' =
      first.toList.splitOn '/' ++ second.toList.splitOn '/' := by
    rw [hchars]
    exact List.splitOnP_append_cons _ _ (by simp)
  simp only [steps, splitAt, hparts, List.map_append]

structure IsFileName (name : String) : Prop where
  steps : steps name = [name]
  isName : isName name = true
  relative : isAbsolute name = false
  ne_dot : name ≠ "."
  ne_dots : name ≠ ".."

/-- Slashes at the end of a path are steps that lead nowhere else. -/
theorem exists_steps_withoutSlashes (path : String) :
    ∃ dots, steps path = steps (withoutSlashes path) ++ dots ∧ ∀ name ∈ dots, name = "." := by
  obtain ⟨slashes, hsplit, hslashes⟩ := exists_append_dropTrailing (· == '/') path.toList
  have hpath : path = withoutSlashes path ++ String.ofList slashes := by
    rw [← String.toList_inj, String.toList_append, String.toList_ofList, withoutSlashes,
      String.toList_ofList]
    exact hsplit
  generalize withoutSlashes path = kept at hpath
  rw [hpath]
  clear hpath hsplit
  induction slashes generalizing kept with
  | nil => exact ⟨[], by simp, nofun⟩
  | cons slash slashes ih =>
    obtain ⟨hslash, hslashes⟩ := List.forall_mem_cons.mp hslashes
    obtain ⟨dots, hdots, hall⟩ := ih hslashes ""
    have hempty : steps "" = ["."] := by decide +kernel
    have hcons : kept ++ String.ofList (slash :: slashes) =
        kept ++ "/" ++ ("" ++ String.ofList slashes) := by
      rw [beq_iff_eq.mp hslash, ← String.toList_inj]
      simp
    refine ⟨"." :: dots, ?_, List.forall_mem_cons.mpr ⟨rfl, hall⟩⟩
    rw [hcons, steps_append, hdots, hempty]
    rfl

theorem steps_withoutSlashes {path : String} (h : (steps path).getLast? ≠ some ".") :
    steps (withoutSlashes path) = steps path := by
  obtain ⟨dots, hsteps, hdots⟩ := exists_steps_withoutSlashes path
  rcases List.eq_nil_or_concat dots with rfl | ⟨front, last, rfl⟩
  · rw [hsteps, List.append_nil]
  · obtain rfl := hdots last (by simp)
    simp [hsteps] at h

/-- Whether a path ends with a slash or not, another one is put behind one slash. -/
theorem exists_front_of_join (hbase : base ≠ "") :
    ∃ front, (base = front ∨ base = front ++ "/") ∧
      ∀ path, isAbsolute path = false → join base path = front ++ "/" ++ path := by
  by_cases hlast : base.toList.getLast? = some '/'
  · obtain ⟨chars, hchars⟩ := List.getLast?_eq_some_iff.mp hlast
    have hfront : base = String.ofList chars ++ "/" := by
      rw [← String.toList_inj, hchars]
      simp
    refine ⟨String.ofList chars, Or.inr hfront, ?_⟩
    intro path hpath
    simp [join, hpath, hbase, hlast, ← hfront]
  · refine ⟨base, Or.inl rfl, ?_⟩
    intro path hpath
    simp [join, hpath, hbase, hlast]

/-- A path is put behind a name that does not end with a slash. -/
theorem join_name {front name path : String} {last : Char}
    (hname : name.toList.getLast? = some last) (hlast : last ≠ '/')
    (hpath : isAbsolute path = false) :
    join (front ++ "/" ++ name) path = front ++ "/" ++ name ++ "/" ++ path := by
  have hend : (front ++ "/" ++ name).toList.getLast? = some last := by
    rw [String.toList_append, List.getLast?_append, hname, Option.some_or]
  have hbase : front ++ "/" ++ name ≠ "" := by simp
  rw [join, hpath, hend]
  simp [hbase, hlast]

/-- Joining a name and then a path is joining both at once. -/
theorem join_join {name path : String} {last : Char} (hbase : base ≠ "")
    (hname : name.toList.getLast? = some last) (hlast : last ≠ '/')
    (hrelative : isAbsolute name = false) (hpath : isAbsolute path = false) :
    join (join base name) path = join base (name ++ "/" ++ path) := by
  obtain ⟨front, _, hjoin⟩ := exists_front_of_join hbase
  have hjoined : isAbsolute (name ++ "/" ++ path) = false := by
    have hsome : name.toList ≠ [] := by
      intro hempty
      simp [hempty] at hname
    rw [isAbsolute, String.toList_append, String.toList_append, List.append_assoc,
      List.head?_append_of_ne_nil _ hsome]
    exact hrelative
  rw [hjoin name hrelative, join_name hname hlast hpath, hjoin _ hjoined]
  simp only [String.append_assoc]

/-- At most a slash is put between two paths. -/
theorem size_join_le (base path : String) :
    (join base path).utf8ByteSize ≤ base.utf8ByteSize + 1 + path.utf8ByteSize := by
  have hslash : "/".utf8ByteSize = 1 := by decide +kernel
  unfold join
  split
  · omega
  split
  · rw [String.utf8ByteSize_append]
    omega
  · rw [String.utf8ByteSize_append, String.utf8ByteSize_append]
    omega

/-- Joining never shortens a path, as at most a slash is put in. -/
theorem le_size_join (base : String) {path : String} (h : isAbsolute path = false) :
    base.utf8ByteSize + path.utf8ByteSize ≤ (join base path).utf8ByteSize := by
  rw [join, h, Bool.false_or]
  split
  · rename_i hempty
    have hbase : base = "" := of_decide_eq_true hempty
    simp [hbase]
  split
  · rw [String.utf8ByteSize_append]
  · rw [String.utf8ByteSize_append, String.utf8ByteSize_append]
    omega

theorem join_ne_empty (base : String) {path : String} (h : path ≠ "") : join base path ≠ "" := by
  unfold join
  split
  · exact h
  split
  · simp [h]
  · simp

end Path

namespace FileTree

def IsTree (tree : FileTree) : Prop :=
  ∀ (location : Location) (name : String),
    (tree.get? (location ++ [name])).isSome = true → tree.isDirectory location = true

variable {tree other : FileTree} {location target : Location}

/-- A tree that lists its directories need be checked for its own entries only. -/
theorem isTree_of_entries
    (h : ∀ entry ∈ tree.entries, tree.isDirectory entry.1.dropLast = true) : tree.IsTree := by
  intro location name hsome
  obtain ⟨entry, hentry⟩ := Option.isSome_iff_exists.mp hsome
  rw [get?, if_neg (by simp)] at hentry
  have hdirectory := h (location ++ [name], entry) (mem_of_lookup_eq_some hentry)
  rwa [List.dropLast_concat] at hdirectory

/-- A file can be written wherever a path leads, unless that is the root or a directory. -/
theorem write_eq_some_iff {path : String} {content : ByteArray} :
    tree.write path content = some other ↔
      ∃ location, tree.locate [] path = some location ∧
        ¬(location = [] ∨ tree.isDirectory location = true) ∧
        other = tree.set location (.file content) := by
  simp only [write, Option.bind_eq_bind, Option.bind_eq_some_iff]
  refine exists_congr fun location => and_congr_right fun _ => ?_
  have hguard : (decide (location = []) || tree.isDirectory location) = true ↔
      location = [] ∨ tree.isDirectory location = true := by
    rw [Bool.or_eq_true, decide_eq_true_eq]
  by_cases htaken : location = [] ∨ tree.isDirectory location = true
  · rw [if_pos (hguard.mpr htaken)]
    exact ⟨nofun, fun h => absurd htaken h.1⟩
  · rw [if_neg (mt hguard.mp htaken), Option.some.injEq]
    exact ⟨fun h => ⟨htaken, h.symm⟩, fun h => h.2.symm⟩

section Following

/-- A way can be followed in two portions. -/
theorem follow_append (tree : FileTree) (location : Location) (first second : List String) :
    tree.follow location (first ++ second) =
      (tree.follow location first).bind fun next => tree.follow next second := by
  induction first generalizing location with
  | nil => rfl
  | cons name first ih =>
    rw [List.cons_append, follow, follow]
    split
    · split
      · exact ih location
      split
      · exact ih location.dropLast
      split
      · exact ih (location ++ [name])
      · rfl
    · rfl

/-- Names can only be followed from a directory. -/
theorem isDirectory_of_follow_cons {name : String} {names : List String}
    (h : tree.follow location (name :: names) = some target) :
    tree.isDirectory location = true := by
  by_cases hdirectory : tree.isDirectory location = true
  · exact hdirectory
  · rw [follow, if_neg hdirectory] at h
    contradiction

/-- In a tree with more directories the same names lead to the same place. -/
theorem follow_of_directories
    (hmore : ∀ location, tree.isDirectory location = true → other.isDirectory location = true)
    {names : List String} (h : tree.follow location names = some target) :
    other.follow location names = some target := by
  induction names generalizing location with
  | nil => exact h
  | cons name names ih =>
    have hdirectory := isDirectory_of_follow_cons h
    rw [follow, if_pos hdirectory] at h
    rw [follow, if_pos (hmore location hdirectory)]
    split
    · rename_i hdot
      rw [if_pos hdot] at h
      exact ih h
    · rename_i hdot
      rw [if_neg hdot] at h
      split
      · rename_i hdots
        rw [if_pos hdots] at h
        exact ih h
      · rename_i hdots
        rw [if_neg hdots] at h
        split
        · rename_i hname
          rw [if_pos hname] at h
          exact ih h
        · rename_i hname
          rw [if_neg hname] at h
          contradiction

theorem follow_name {name : String} (hdirectory : tree.isDirectory location = true)
    (hdot : name ≠ ".") (hdots : name ≠ "..") (hname : Path.isName name = true) :
    tree.follow location [name] = some (location ++ [name]) := by
  rw [follow, if_pos hdirectory, if_neg hdot, if_neg hdots, if_pos hname, follow]

end Following

section Creating

theorem get?_of_isDirectory (h : tree.isDirectory location = true) :
    tree.get? location = some .directory := by
  unfold isDirectory at h
  split at h
  · assumption
  · contradiction

theorem isSome_of_isDirectory (h : tree.isDirectory location = true) :
    (tree.get? location).isSome = true := by
  rw [get?_of_isDirectory h]
  rfl

theorem isDirectory_of_get? (h : tree.get? location = some .directory) :
    tree.isDirectory location = true := by
  rw [isDirectory, h]

theorem get?_set_self (tree : FileTree) (hlocation : location ≠ []) (entry : FileEntry) :
    (tree.set location entry).get? location = some entry := by
  rw [get?_set tree location entry hlocation, if_pos rfl]

theorem isDirectory_set (tree : FileTree) (hlocation : location ≠ []) :
    (tree.set location .directory).isDirectory location = true :=
  isDirectory_of_get? (get?_set_self tree hlocation .directory)

/-- Nothing is created along directories that are there. -/
theorem attemptAlong_append {first second : List String}
    (h : tree.follow location first = some target) (hdirectory : tree.isDirectory target = true) :
    tree.attemptAlong location (first ++ second) = tree.attemptAlong target second := by
  induction first generalizing location with
  | nil =>
    obtain rfl := Option.some.inj h
    rfl
  | cons name first ih =>
    rw [follow, if_pos (isDirectory_of_follow_cons h)] at h
    rw [List.cons_append, attemptAlong]
    by_cases hdot : name = "."
    · rw [if_pos hdot] at h ⊢
      exact ih h
    by_cases hdots : name = ".."
    · rw [if_neg hdot, if_pos hdots] at h ⊢
      exact ih h
    by_cases hname : Path.isName name = true
    · rw [if_neg hdot, if_neg hdots, if_pos hname] at h
      rw [if_neg hdot, if_neg hdots, hname]
      have hnext : tree.get? (location ++ [name]) = some .directory := by
        cases first with
        | nil =>
          obtain rfl := Option.some.inj h
          exact get?_of_isDirectory hdirectory
        | cons second rest => exact get?_of_isDirectory (isDirectory_of_follow_cons h)
      simp only [hnext, Bool.not_true, Bool.false_eq_true, if_false]
      exact ih h
    · rw [if_neg hdot, if_neg hdots, if_neg hname] at h
      contradiction

end Creating

end FileTree

end ReleaseNotes
