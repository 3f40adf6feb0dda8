import ReleaseNotes.Command.Run
import ReleaseNotes.Proofs.Files.Naming
import ReleaseNotes.Proofs.Journal

/-!
What saving a generated file does to the files. If the file can be written, then it is the only
thing that is new, with the directory that holds it. If not, then everything is as before, unless
the path of the file alone is too long: the directory is created by then.
-/

namespace ReleaseNotes

namespace FileTree

def IsPrepared (tree : FileTree) (directory : Location) (prepared : FileTree) : Prop :=
  tree.get? directory = some .directory ∧ prepared = tree ∨
    tree.get? directory = none ∧ prepared = tree.set directory .directory

/-- A tree with a file in a directory that was there or is new. Everything else is as before. -/
def IsSaved (tree : FileTree) (directory : Location) (name : String) (content : ByteArray)
    (written : FileTree) : Prop :=
  ∀ location, written.get? location =
    if location = directory ++ [name] then some (.file content)
    else if location = directory then some .directory
    else tree.get? location

variable {tree prepared written : FileTree} {directory location : Location}

section Prepared

variable (hdirectory : directory ≠ [])

include hdirectory

/-- A new directory has no content, so all files are as before. -/
theorem IsPrepared.content? (h : tree.IsPrepared directory prepared) (location : Location) :
    prepared.content? location = tree.content? location := by
  rcases h with ⟨_, rfl⟩ | ⟨hnone, rfl⟩
  · rfl
  · rw [FileTree.content?, FileTree.content?, get?_set tree location .directory hdirectory]
    by_cases hlocation : location = directory
    · rw [if_pos hlocation, hlocation, hnone]
    · rw [if_neg hlocation]

theorem IsPrepared.isDirectory (h : tree.IsPrepared directory prepared)
    (hlocation : tree.isDirectory location = true ∨ location = directory) :
    prepared.isDirectory location = true := by
  rcases h with ⟨hthere, rfl⟩ | ⟨_, rfl⟩
  · rcases hlocation with hlocation | rfl
    · exact hlocation
    · exact isDirectory_of_get? hthere
  · apply isDirectory_of_get?
    rw [get?_set tree location .directory hdirectory]
    by_cases hnew : location = directory
    · exact if_pos hnew
    · rw [if_neg hnew]
      exact get?_of_isDirectory (hlocation.resolve_right hnew)

/-- Something in a directory that is created only now would have been nowhere. -/
theorem IsPrepared.eq_of_isDirectory (htree : tree.IsTree) (h : tree.IsPrepared directory prepared)
    {name : String} (hname : prepared.isDirectory (directory ++ [name]) = true) :
    prepared = tree := by
  rcases h with ⟨_, heq⟩ | ⟨hnone, rfl⟩
  · exact heq
  · have hne : directory ++ [name] ≠ directory := by simp
    have hsome := get?_of_isDirectory hname
    rw [get?_set tree _ .directory hdirectory, if_neg hne] at hsome
    have hthere := get?_of_isDirectory (htree directory name (by rw [hsome]; rfl))
    rw [hnone] at hthere
    contradiction

/-- A file in a prepared directory makes no other difference than the directory itself. -/
theorem IsPrepared.isSaved (h : tree.IsPrepared directory prepared) (name : String)
    (content : ByteArray) :
    tree.IsSaved directory name content (prepared.set (directory ++ [name]) (.file content)) := by
  intro location
  rw [get?_set prepared location (.file content) (by simp)]
  by_cases hfile : location = directory ++ [name]
  · rw [if_pos hfile, if_pos hfile]
  · rw [if_neg hfile, if_neg hfile]
    rcases h with ⟨hthere, rfl⟩ | ⟨_, rfl⟩
    · by_cases hlocation : location = directory
      · rw [if_pos hlocation, hlocation, hthere]
      · rw [if_neg hlocation]
    · rw [get?_set tree location .directory hdirectory]

end Prepared

end FileTree

namespace Project

variable {tree : FileTree} {working : Location} {directory : String} {project : Project}

theorem locate_eq_some_iff {path : String} {location : Location} :
    tree.locate [] path = some location ↔
      Path.isUsable path = true ∧ tree.follow [] (Path.steps path) = some location := by
  rw [FileTree.locate_eq_some_iff, FileTree.startOf, ite_self]

theorem exists_location_of_readFile {context : Context} {path text : String}
    (h : readFile tree context path = .ok text) :
    ∃ location, tree.locate [] path = some location := by
  unfold readFile at h
  split at h
  · rename_i found hfound
    simp only [FileTree.readText?, Option.bind_eq_bind, Option.bind_eq_some_iff] at hfound
    obtain ⟨location, hlocation, _⟩ := hfound
    exact ⟨location, hlocation⟩
  · contradiction

/-- Where a project that was loaded is: paths in it go on behind the front, which leads to the
root. -/
structure IsAt (project : Project) (tree : FileTree) (front : String) (root : Location) : Prop where
  join : ∀ path, Path.isAbsolute path = false →
    Path.join project.baseDirectory path = front ++ "/" ++ path
  follow : tree.follow [] (Path.steps front) = some root
  isDirectory : tree.isDirectory root = true
  locate : tree.locate [] project.baseDirectory = some root

/-- The base directory of a project that was loaded leads to a directory. -/
theorem exists_isAt_of_load (h : load tree working directory = .ok project) :
    ∃ front root, project.IsAt tree front root := by
  unfold load at h
  split at h
  · contradiction
  · rename_i location hlocation
    simp only [bind_eq_ok_iff] at h
    obtain ⟨text, htext, metadata, hmetadata, trackers, htrackers, hproject⟩ := h
    obtain rfl := Except.ok.inj hproject
    have hbase : location.path ≠ "" := by simp [Location.path]
    obtain ⟨front, hfront, hjoin⟩ := Path.exists_front_of_join hbase
    have hharvest : "harvest".toList.getLast? = some 't' := by decide +kernel
    have hpath : metadataFile location.path =
        front ++ "/" ++ "harvest" ++ "/" ++ "project.yaml" := by
      rw [metadataFile, configurationFile, hjoin "harvest" (by decide +kernel)]
      exact Path.join_name hharvest (by decide) (by decide +kernel)
    -- The description of the project was read, so the way to it goes through the root.
    obtain ⟨file, hfile⟩ := exists_location_of_readFile htext
    obtain ⟨husable, hfollow⟩ := locate_eq_some_iff.mp hfile
    rw [hpath] at husable hfollow
    have hsteps : Path.steps "harvest" ++ Path.steps "project.yaml" =
        ["harvest", "project.yaml"] := by decide +kernel
    rw [Path.steps_append, Path.steps_append, List.append_assoc, hsteps,
      FileTree.follow_append, Option.bind_eq_some_iff] at hfollow
    obtain ⟨root, hroot, hrest⟩ := hfollow
    have hdirectory := FileTree.isDirectory_of_follow_cons hrest
    refine ⟨front, root, hjoin, hroot, hdirectory, locate_eq_some_iff.mpr ⟨?_, ?_⟩⟩
    · have hsize : location.path.utf8ByteSize ≤ 4095 := by
        simp only [Path.isUsable, Bool.and_eq_true, decide_eq_true_eq,
          String.utf8ByteSize_append] at husable
        rcases hfront with hfront | hfront
        · rw [hfront]
          omega
        · rw [hfront, String.utf8ByteSize_append]
          omega
      simp [Path.isUsable, hbase, hsize]
    · rcases hfront with hfront | hfront
      · rw [hfront, hroot]
      · have hend : Path.steps (front ++ "/") = Path.steps front ++ ["."] := by
          have hempty : Path.steps "" = ["."] := by decide +kernel
          rw [← hempty, ← Path.steps_append, String.append_empty]
        rw [hfront, hend, FileTree.follow_append, hroot]
        simp [FileTree.follow, hdirectory]

end Project

def Output.path (output : Output) : String :=
  Path.join output.project.generatedDirectory output.name

namespace Command

open Journaled Project
open ReleaseNotes.Path (IsFileName)

variable {tree prepared written : FileTree} {front : String} {root : Location} {output : Output}

def generatedAt (root : Location) : Location := root ++ ["generated"]

theorem isFileName_generated : IsFileName "generated" where
  steps := by decide +kernel
  isName := by decide +kernel
  relative := by decide +kernel
  ne_dot := by decide
  ne_dots := by decide

theorem generatedAt_ne_nil (root : Location) : generatedAt root ≠ [] := by
  simp [generatedAt]

/-- The directory for generated files is there already, or it is created. -/
theorem isPrepared_of_createDirectories (hat : output.project.IsAt tree front root)
    (h : tree.createDirectories [] output.project.generatedDirectory = some prepared) :
    tree.IsPrepared (generatedAt root) prepared := by
  have hpath : output.project.generatedDirectory = front ++ "/" ++ "generated" :=
    hat.join "generated" isFileName_generated.relative
  have hsteps : Path.steps (front ++ "/" ++ "generated") = Path.steps front ++ ["generated"] := by
    rw [Path.steps_append, isFileName_generated.steps]
  have hlast : (Path.steps (front ++ "/" ++ "generated")).getLast? ≠ some "." := by simp [hsteps]
  rw [FileTree.createDirectories, FileTree.attemptDirectories, ite_self, hpath] at h
  split at h
  · rename_i hempty
    simp at hempty
  split at h
  · contradiction
  rw [Path.steps_withoutSlashes hlast, hsteps,
    FileTree.attemptAlong_append hat.follow hat.isDirectory,
    FileTree.attemptAlong, if_neg isFileName_generated.ne_dot,
    if_neg isFileName_generated.ne_dots, isFileName_generated.isName] at h
  simp only [Bool.not_true, Bool.false_eq_true, if_false] at h
  split at h
  · rename_i hnone
    exact Or.inr ⟨hnone, (Option.some.inj h).symm⟩
  · rename_i hsome
    exact Or.inl ⟨hsome, (Option.some.inj h).symm⟩
  · contradiction

/-- The path of a generated file leads into the directory for such files, unless it is too long. -/
theorem locate_output (hat : output.project.IsAt tree front root) (hname : IsFileName output.name)
    (hprepared : tree.IsPrepared (generatedAt root) prepared) :
    prepared.locate [] output.path =
      if Path.isUsable output.path then some (generatedAt root ++ [output.name]) else none := by
  have hgenerated : "generated".toList.getLast? = some 'd' := by decide +kernel
  have hpath : output.path = front ++ "/" ++ "generated" ++ "/" ++ output.name := by
    rw [Output.path, generatedDirectory, hat.join "generated" isFileName_generated.relative]
    exact Path.join_name hgenerated (by decide) hname.relative
  have hkept {location : Location} (h : tree.isDirectory location = true) :
      prepared.isDirectory location = true :=
    hprepared.isDirectory (generatedAt_ne_nil root) (Or.inl h)
  have hfront : prepared.follow [] (Path.steps front) = some root :=
    FileTree.follow_of_directories (fun location => hkept) hat.follow
  have hroot : prepared.follow root ["generated"] = some (generatedAt root) :=
    FileTree.follow_name (hkept hat.isDirectory) isFileName_generated.ne_dot
      isFileName_generated.ne_dots isFileName_generated.isName
  have hfile : prepared.follow (generatedAt root) [output.name] =
      some (generatedAt root ++ [output.name]) :=
    FileTree.follow_name (hprepared.isDirectory (generatedAt_ne_nil root) (Or.inr rfl))
      hname.ne_dot hname.ne_dots hname.isName
  have hfollow : prepared.follow [] (Path.steps output.path) =
      some (generatedAt root ++ [output.name]) := by
    rw [hpath, Path.steps_append, Path.steps_append, isFileName_generated.steps, hname.steps,
      FileTree.follow_append, FileTree.follow_append, hfront, Option.bind_some, hroot,
      Option.bind_some, hfile]
  rw [FileTree.locate, ite_self, hfollow]

/-- Only its length can make the path of an output unusable. -/
theorem lt_size_of_not_isUsable (hname : IsFileName output.name)
    (h : ¬Path.isUsable output.path = true) : 4095 < output.path.utf8ByteSize := by
  have hpath : output.path ≠ "" := Path.join_ne_empty _ hname.isPlain.ne_empty
  simpa [Path.isUsable, hpath] using h

/-- What is left of an attempt to write a file whose path is longer than the file system allows,
when the path of the directory for it is not: the directory, which was missing. -/
structure IsLeftBehind (tree : FileTree) (root : Location) (path : String) (failure : Failure)
    (left : FileTree) : Prop where
  failed : failure = ⟨[.writing path], .fileSystem⟩
  long : 4095 < path.utf8ByteSize
  missing : tree.get? (generatedAt root) = none
  directory : left = tree.set (generatedAt root) .directory

/-- The directory is empty, so all files are as before. -/
theorem IsLeftBehind.content? {path : String} {failure : Failure} {left : FileTree}
    (h : IsLeftBehind tree root path failure left) (location : Location) :
    left.content? location = tree.content? location := by
  have hprepared : tree.IsPrepared (generatedAt root) left := Or.inr ⟨h.missing, h.directory⟩
  exact hprepared.content? (generatedAt_ne_nil root) location

section Saving

theorem save_of_uncreated
    (h : tree.createDirectories [] output.project.generatedDirectory = none) :
    save tree output = ⟨tree, .failWith ⟨[.creatingOutputDirectory], .fileSystem⟩⟩ := by
  simp only [save, h]

/-- A directory that was made stays if the file cannot be written into it. -/
theorem save_of_unwritten
    (hcreate : tree.createDirectories [] output.project.generatedDirectory = some prepared)
    (hwrite : prepared.write output.path output.content.toUTF8 = none) :
    save tree output = ⟨prepared, .failWith ⟨[.writing output.path], .fileSystem⟩⟩ := by
  rw [Output.path] at hwrite
  simp only [save, hcreate, hwrite, Output.path]

theorem save_of_written
    (hcreate : tree.createDirectories [] output.project.generatedDirectory = some prepared)
    (hwrite : prepared.write output.path output.content.toUTF8 = some written) :
    save tree output = ⟨written, Journaled.log .info s!"Saved {output.path}"⟩ := by
  rw [Output.path] at hwrite
  simp only [save, hcreate, hwrite, Output.path]

/-- If a file cannot be saved then nothing has changed, or the directory for it is left behind. -/
theorem save_cases (htree : tree.IsTree) (hat : output.project.IsAt tree front root)
    (hname : IsFileName output.name) :
    (∃ failure, (save tree output).journal.outcome = .error failure ∧
      ((save tree output).tree = tree ∨
        IsLeftBehind tree root output.path failure (save tree output).tree)) ∨
      (save tree output).journal.outcome = .ok () ∧
        tree.IsSaved (generatedAt root) output.name output.content.toUTF8
          (save tree output).tree := by
  have hne := generatedAt_ne_nil root
  cases hcreate : tree.createDirectories [] output.project.generatedDirectory with
  | none =>
    rw [save_of_uncreated hcreate]
    exact Or.inl ⟨_, rfl, Or.inl rfl⟩
  | some prepared =>
    have hprepared := isPrepared_of_createDirectories hat hcreate
    have hlocate := locate_output hat hname hprepared
    cases hwrite : prepared.write output.path output.content.toUTF8 with
    | none =>
      rw [save_of_unwritten hcreate hwrite]
      refine Or.inl ⟨_, rfl, ?_⟩
      by_cases husable : Path.isUsable output.path = true
      · rw [if_pos husable] at hlocate
        have htaken : prepared.isDirectory (generatedAt root ++ [output.name]) = true := by
          -- The path can be followed, so only a directory can be in the way of the file.
          by_contra hdirectory
          have hfree : ¬(generatedAt root ++ [output.name] = [] ∨
              prepared.isDirectory (generatedAt root ++ [output.name]) = true) := by
            simp [hdirectory]
          have hwritten : prepared.write output.path output.content.toUTF8 =
              some (prepared.set (generatedAt root ++ [output.name])
                (.file output.content.toUTF8)) :=
            FileTree.write_eq_some_iff.mpr ⟨_, hlocate, hfree, rfl⟩
          rw [hwrite] at hwritten
          contradiction
        exact Or.inl (hprepared.eq_of_isDirectory hne htree htaken)
      · rcases hprepared with ⟨_, hsame⟩ | ⟨hmissing, hset⟩
        · exact Or.inl hsame
        · exact Or.inr ⟨rfl, lt_size_of_not_isUsable hname husable, hmissing, hset⟩
    | some written =>
      rw [save_of_written hcreate hwrite]
      refine Or.inr ⟨rfl, ?_⟩
      obtain ⟨location, hlocation, _, hwritten⟩ := FileTree.write_eq_some_iff.mp hwrite
      rw [hlocate] at hlocation
      split at hlocation
      · obtain rfl := Option.some.inj hlocation
        rw [hwritten]
        exact hprepared.isSaved hne output.name output.content.toUTF8
      · contradiction

end Saving

end Command

end ReleaseNotes
