import ReleaseNotes.Files.Embedded
import ReleaseNotes.Proofs.Files.Naming

/-!
What extracting embedded files does to a tree. The recursive extraction is the same as performing
one deed after the other, and the listed files are those that the deeds write. Each file has a place
below the directory that is filled, which depends on its path alone, and nothing but the directories
around these places and the files at them is ever changed.
-/

namespace ReleaseNotes

open FileTree
open ReleaseNotes.Path (IsFileName IsPlain)

theorem FileTree.Attempt.andThen_done (attempt : Attempt) :
    attempt.andThen (fun tree => ⟨tree, true⟩) = attempt := by
  by_cases hdone : attempt.isDone = true
  · rw [andThen, if_pos hdone, ← hdone]
  · rw [andThen, if_neg hdone]

inductive Deed where
  | make (path : String)
  | write (path content : String)

namespace Deed

def path : Deed → String
  | .make path | .write path _ => path

def file? : Deed → Option (String × String)
  | .make _ => none
  | .write path content => some (path, content)

def perform (tree : FileTree) (base : String) : Deed → Attempt
  | .make path => tree.attemptDirectories [] (Path.join base path)
  | .write path content => Embedded.writeFile tree (Path.join base path) content

/-- Performs deeds up to the first one that something is in the way of. -/
def performAll (tree : FileTree) (base : String) : List Deed → Attempt
  | [] => ⟨tree, true⟩
  | deed :: deeds => (deed.perform tree base).andThen fun next => performAll next base deeds

variable {tree other : FileTree} {base : String} {deed : Deed} {deeds : List Deed}

theorem performAll_cons_of_isDone (h : (deed.perform tree base).isDone = true)
    (deeds : List Deed) :
    performAll tree base (deed :: deeds) = performAll (deed.perform tree base).tree base deeds :=
  if_pos h

theorem performAll_cons_of_not_isDone (h : ¬(deed.perform tree base).isDone = true)
    (deeds : List Deed) : performAll tree base (deed :: deeds) = deed.perform tree base :=
  if_neg h

/-- Deeds can be performed in two portions: the second one is left undone if the first one fails. -/
theorem performAll_append (tree : FileTree) (base : String) (first second : List Deed) :
    performAll tree base (first ++ second) =
      (performAll tree base first).andThen fun next => performAll next base second := by
  induction first generalizing tree with
  | nil => rfl
  | cons deed first ih =>
    rw [List.cons_append]
    by_cases hdone : (deed.perform tree base).isDone = true
    · rw [performAll_cons_of_isDone hdone, performAll_cons_of_isDone hdone, ih]
    · rw [performAll_cons_of_not_isDone hdone, performAll_cons_of_not_isDone hdone,
        Attempt.andThen, if_neg hdone]

/-- What holds of each deed, and carries over from one to the next, holds of all of them. -/
theorem performAll_induction {motive : FileTree → FileTree → Prop}
    (hrefl : ∀ tree, motive tree tree)
    (htrans : ∀ first second third, motive first second → motive second third → motive first third)
    (hdeed : ∀ tree, ∀ deed ∈ deeds, motive tree (deed.perform tree base).tree) (tree : FileTree) :
    motive tree (performAll tree base deeds).tree := by
  induction deeds generalizing tree with
  | nil => exact hrefl tree
  | cons deed deeds ih =>
    obtain ⟨hfirst, hdeeds⟩ : _ ∧ _ := ⟨hdeed tree deed List.mem_cons_self,
      fun tree inner hinner => hdeed tree inner (List.mem_cons_of_mem deed hinner)⟩
    by_cases hdone : (deed.perform tree base).isDone = true
    · rw [performAll_cons_of_isDone hdone]
      exact htrans _ _ _ hfirst (ih hdeeds _)
    · rwa [performAll_cons_of_not_isDone hdone]

end Deed

namespace Embedded

mutual

def deeds : Embedded → List Deed
  | .file path content => [.write path content]
  | .directory path entries => .make path :: deedsOfAll entries

def deedsOfAll : List Embedded → List Deed
  | [] => []
  | entry :: entries => entry.deeds ++ deedsOfAll entries

end

open Deed

mutual

/-- Extracting an entry performs its deeds, by recursion along with the entries in it. -/
theorem extract_eq_performAll (tree : FileTree) (base : String) :
    (entry : Embedded) → extract tree base entry = performAll tree base entry.deeds
  | .file path content => by
    rw [deeds, performAll]
    exact (Attempt.andThen_done _).symm
  | .directory path entries => by
    have hentries (next : FileTree) := extractAll_eq_performAll next base entries
    rw [extract, deeds, performAll]
    simp only [hentries, perform]

theorem extractAll_eq_performAll (tree : FileTree) (base : String) :
    (entries : List Embedded) →
      extractAll tree base entries = performAll tree base (deedsOfAll entries)
  | [] => rfl
  | entry :: entries => by
    have hentries (next : FileTree) := extractAll_eq_performAll next base entries
    rw [extractAll, deedsOfAll, performAll_append, extract_eq_performAll tree base entry]
    simp only [hentries]

end

mutual

/-- The files that are listed are the files that are written, in the same order. -/
theorem files_eq_filterMap : (entry : Embedded) → entry.files = entry.deeds.filterMap Deed.file?
  | .file path content => rfl
  | .directory path entries => by
    rw [files, deeds, List.filterMap_cons_none rfl, filesOfAll_eq_filterMap entries]

theorem filesOfAll_eq_filterMap :
    (entries : List Embedded) → filesOfAll entries = (deedsOfAll entries).filterMap Deed.file?
  | [] => rfl
  | entry :: entries => by
    rw [filesOfAll, deedsOfAll, List.filterMap_append, files_eq_filterMap entry,
      filesOfAll_eq_filterMap entries]

end

end Embedded

namespace FileTree

structure CanWrite (tree : FileTree) (path : String) (location : Location) : Prop where
  locate : tree.locate [] path = some location
  ne_root : location ≠ []
  free : tree.isDirectory location = false

variable {tree other : FileTree} {location : Location} {path content : String}

theorem writeFile_of_canWrite (h : tree.CanWrite path location) (content : String) :
    Embedded.writeFile tree path content = ⟨tree.set location (.file content.toUTF8), true⟩ := by
  have hfree : ¬(location = [] ∨ tree.isDirectory location = true) := by
    simp [h.ne_root, h.free]
  rw [Embedded.writeFile, write_eq_some_iff.mpr ⟨location, h.locate, hfree, rfl⟩]

/-- Either a file can be written at some location, or the attempt changes nothing. -/
theorem exists_canWrite_or (tree : FileTree) (path content : String) :
    (∃ location, tree.CanWrite path location) ∨
      Embedded.writeFile tree path content = ⟨tree, false⟩ := by
  unfold Embedded.writeFile
  cases hwrite : tree.write path content.toUTF8 with
  | none => exact Or.inr rfl
  | some written =>
    obtain ⟨location, hlocate, hfree, _⟩ := write_eq_some_iff.mp hwrite
    obtain ⟨hroot, hfree⟩ := not_or.mp hfree
    exact Or.inl ⟨location, hlocate, hroot, Bool.not_eq_true _ |>.mp hfree⟩

theorem CanWrite.includes (h : tree.CanWrite path location) (content : ByteArray) :
    tree.Includes (tree.set location (.file content)) := by
  intro target kind hkind
  rw [kind?, get?_set tree target (.file content) h.ne_root]
  by_cases htarget : target = location
  · subst htarget
    rw [if_pos rfl]
    cases kind with
    | false => rfl
    | true =>
      rw [kind?_eq_some_true_iff, h.free] at hkind
      contradiction
  · rw [if_neg htarget]
    exact hkind

theorem CanWrite.isTree (htree : tree.IsTree) (h : tree.CanWrite path location)
    (content : ByteArray) : (tree.set location (.file content)).IsTree := by
  obtain ⟨_, hfollow⟩ := locate_eq_some_iff.mp h.locate
  have hstart : tree.isDirectory (startOf [] path).dropLast = true := by
    rw [startOf, ite_self]
    rfl
  have hparent := htree.isDirectory_dropLast_of_follow hstart hfollow
  obtain ⟨front, name, rfl⟩ := (List.eq_nil_or_concat' location).resolve_left h.ne_root
  rw [List.dropLast_concat] at hparent
  exact htree.set hparent h.free (.file content)

theorem CanWrite.exists? (h : tree.CanWrite path location) (content : ByteArray) :
    (tree.set location (.file content)).exists? path = true := by
  obtain ⟨husable, hfollow⟩ := locate_eq_some_iff.mp h.locate
  have hfind : (tree.set location (.file content)).find? [] path = some location := by
    refine find?_eq_some_iff.mpr ⟨husable, (h.includes content).follow hfollow, ?_⟩
    rw [get?_set_self tree h.ne_root]
    rfl
  rw [FileTree.exists?, hfind]
  rfl

/-- Whether a file can be written does not depend on what is in the files. -/
theorem CanWrite.of_sameShape (h : tree.CanWrite path location) (hshape : tree.SameShape other) :
    other.CanWrite path location := by
  obtain ⟨husable, hfollow⟩ := locate_eq_some_iff.mp h.locate
  refine ⟨locate_eq_some_iff.mpr ⟨husable, hshape.includes.follow hfollow⟩, h.ne_root, ?_⟩
  by_contra hdirectory
  have hthere := hshape.symm.includes.isDirectory (Bool.not_eq_false _ |>.mp hdirectory)
  rw [h.free] at hthere
  contradiction

end FileTree

namespace Deed

variable {tree other : FileTree} {base : String} {deed : Deed} {deeds : List Deed}

/-- A deed that writes either sets one location or fails and changes nothing. -/
theorem perform_write_cases (tree : FileTree) (base path content : String) :
    (∃ location, tree.CanWrite (Path.join base path) location ∧
      (Deed.write path content).perform tree base =
        ⟨tree.set location (.file content.toUTF8), true⟩) ∨
    (Deed.write path content).perform tree base = ⟨tree, false⟩ :=
  (exists_canWrite_or tree (Path.join base path) content).imp_left fun ⟨location, hwrite⟩ =>
    ⟨location, hwrite, writeFile_of_canWrite hwrite content⟩

theorem includes_perform (tree : FileTree) (base : String) (deed : Deed) :
    tree.Includes (deed.perform tree base).tree := by
  cases deed with
  | make path => exact (isExtended_attemptDirectories tree [] (Path.join base path)).includes
  | write path content =>
    rcases perform_write_cases tree base path content with ⟨location, hwrite, hdone⟩ | hfailed
    · rw [hdone]
      exact hwrite.includes content.toUTF8
    · rw [hfailed]
      exact fun _ _ hkind => hkind

theorem isTree_perform (htree : tree.IsTree) (base : String) (deed : Deed) :
    (deed.perform tree base).tree.IsTree := by
  cases deed with
  | make path => exact isTree_attemptDirectories htree rfl (Path.join base path)
  | write path content =>
    rcases perform_write_cases tree base path content with ⟨location, hwrite, hdone⟩ | hfailed
    · rw [hdone]
      exact hwrite.isTree htree content.toUTF8
    · rwa [hfailed]

theorem includes_performAll (tree : FileTree) (base : String) (deeds : List Deed) :
    tree.Includes (performAll tree base deeds).tree :=
  performAll_induction (motive := Includes) (fun _ _ _ hkind => hkind)
    (fun _ _ _ h hlater => h.trans hlater) (fun tree deed _ => includes_perform tree base deed) tree

theorem isTree_performAll (htree : tree.IsTree) (base : String) (deeds : List Deed) :
    (performAll tree base deeds).tree.IsTree :=
  performAll_induction (motive := fun tree other => tree.IsTree → other.IsTree) (fun _ h => h)
    (fun _ _ _ h hlater => hlater ∘ h) (fun _ deed _ htree => isTree_perform htree base deed)
    tree htree

/-- Deeds that came to a stop come to a stop again, unless a file that was written meanwhile is
found. What is decisive is where there are files and directories, not what is in the files. -/
theorem exists?_or_not_isDone_again (htree : tree.IsTree)
    (hbase : ∀ deed ∈ deeds, Path.join base deed.path ≠ "")
    (hfailed : ¬(performAll tree base deeds).isDone = true)
    (hshape : (performAll tree base deeds).tree.SameShape other) :
    (∃ file ∈ deeds.filterMap file?, other.exists? (Path.join base file.1) = true) ∨
      ¬(performAll other base deeds).isDone = true := by
  induction deeds generalizing tree with
  | nil => exact absurd rfl hfailed
  | cons deed deeds ih =>
    obtain ⟨hfirst, hbase⟩ := List.forall_mem_cons.mp hbase
    by_cases hdone : (deed.perform tree base).isDone = true
    · rw [performAll_cons_of_isDone hdone] at hfailed hshape
      have hother := (includes_performAll (deed.perform tree base).tree base deeds).trans
        hshape.includes
      have hrest := ih (isTree_perform htree base deed) hbase hfailed hshape
      cases deed with
      | make path =>
        rw [List.filterMap_cons_none rfl]
        obtain ⟨target, hfind, hdirectory⟩ :=
          exists_find?_of_attemptDirectories htree rfl hfirst hdone
        have hagain : (Deed.make path).perform other base = ⟨other, true⟩ :=
          attemptDirectories_of_find? (hother.find? hfind) (hother.isDirectory hdirectory)
        rwa [performAll_cons_of_isDone (by rw [hagain]), hagain]
      | write path content =>
        rcases perform_write_cases tree base path content with ⟨location, hwrite, hwritten⟩ | hnot
        · rw [hwritten] at hother
          have hfile : (path, content) ∈ (Deed.write path content :: deeds).filterMap file? :=
            List.mem_filterMap.mpr ⟨.write path content, List.mem_cons_self, rfl⟩
          exact Or.inl ⟨_, hfile, hother.exists? (hwrite.exists? content.toUTF8)⟩
        · rw [hnot] at hdone
          contradiction
    · rw [performAll_cons_of_not_isDone hdone] at hshape
      have hagain : ¬(deed.perform other base).isDone = true := by
        cases deed with
        | make path =>
          have hsame : (Deed.make path).perform other base =
              ⟨other, ((Deed.make path).perform tree base).isDone⟩ :=
            attemptDirectories_again hshape.symm
          rwa [hsame]
        | write path content =>
          rcases perform_write_cases tree base path content with ⟨location, hwrite, hwritten⟩ | hnot
          · rw [hwritten] at hdone
            contradiction
          rcases perform_write_cases other base path content with ⟨location, hwrite, _⟩ | hstill
          · rw [hnot] at hshape
            have hthere := writeFile_of_canWrite (hwrite.of_sameShape hshape.symm) content
            exact absurd (hnot.symm.trans hthere) (by simp)
          · rw [hstill]
            nofun
      rw [performAll_cons_of_not_isDone hagain]
      exact Or.inr hagain

section Places

variable {root : Location}

/-- What deeds below a location may have done: directories are new on the way to their places, and
files are written at their places. -/
def IsChangedBy (deeds : List Deed) (root : Location) (tree other : FileTree) : Prop :=
  ∀ location, other.get? location = tree.get? location ∨
    (tree.get? location = none ∧ other.get? location = some .directory ∧
      ∃ path, .make path ∈ deeds ∧ location <+: placeOf root path) ∨
    ∃ file ∈ deeds.filterMap file?, Path.isUsable (Path.join root.path file.1) = true ∧
      location = placeOf root file.1 ∧ other.get? location = some (.file file.2.toUTF8)

/-- Changes by the same deeds one after another are changes by these deeds. -/
theorem IsChangedBy.trans {third : FileTree} (h : IsChangedBy deeds root tree other)
    (hlater : IsChangedBy deeds root other third) : IsChangedBy deeds root tree third := by
  intro location
  rcases hlater location with hsame | ⟨hnone, hdirectory, hnew⟩ | hwritten
  · rw [hsame]
    exact h location
  · rcases h location with hsame | ⟨_, hsome, _⟩ | ⟨_, _, _, _, hsome⟩
    · exact Or.inr (Or.inl ⟨hsame.symm.trans hnone, hdirectory, hnew⟩)
    · rw [hsome] at hnone
      contradiction
    · rw [hsome] at hnone
      contradiction
  · exact Or.inr (Or.inr hwritten)

variable (hroot : ∀ name ∈ root, IsFileName name)

include hroot

/-- A deed that makes a directory adds directories on the way to its place. -/
theorem isExtended_make {path : String} (hpath : IsPlain path) (tree : FileTree) :
    tree.IsExtended (· <+: placeOf root path) ((Deed.make path).perform tree root.path).tree := by
  refine (isExtended_attemptDirectories tree [] (Path.join root.path path)).mono ?_
  intro location hnew
  rw [startOf, ite_self, Path.steps_join hroot hpath, through, if_pos rfl] at hnew
  have hbefore : location <+: [] ++ placeOf root path :=
    isPrefix_of_mem_through (isFileName_of_mem_placeOf hroot hpath) hnew
  exact hbefore

/-- A path below a directory can be followed in a tree that has the new directory already, so it is
one of which directories can be created. -/
theorem isCreatable_join {name : String} (htree : tree.IsTree) (hname : IsFileName name)
    (husable : Path.isUsable (Path.join root.path name) = true)
    (hdirectory : tree.isDirectory root = true) (hnone : tree.get? (placeOf root name) = none) :
    IsCreatable (Path.join root.path name) := by
  have hplace : placeOf root name = root ++ [name] := by rw [placeOf, hname.steps]
  have hcreated : (tree.set (placeOf root name) .directory).IsTree := by
    rw [hplace] at hnone ⊢
    exact htree.set hdirectory (by rw [isDirectory, hnone]) .directory
  have hsome : ((tree.set (placeOf root name) .directory).get? (placeOf root name)).isSome =
      true := by
    exact isSome_of_isDirectory (isDirectory_set tree (placeOf_ne_nil root name))
  exact isCreatable_of_find? ((find?_join hroot hname.isPlain hcreated).mpr ⟨husable, hsome, rfl⟩)

/-- A directory that is missing in another one can be made, and nothing else changes. -/
theorem perform_make_of_missing {name : String} (htree : tree.IsTree) (hname : IsFileName name)
    (husable : Path.isUsable (Path.join root.path name) = true)
    (hdirectory : tree.isDirectory root = true) (hmissing : tree.get? (root ++ [name]) = none) :
    (Deed.make name).perform tree root.path = ⟨tree.set (root ++ [name]) .directory, true⟩ := by
  have hplain := hname.isPlain
  have hplace : placeOf root name = root ++ [name] := by rw [placeOf, hname.steps]
  have hlead : tree.follow [] ("." :: root) = some root := by
    have hroots : tree.isDirectory [] = true := rfl
    rw [follow, if_pos hroots, if_pos rfl]
    exact follow_of_isSome htree hroot (isSome_of_isDirectory hdirectory)
  have hsteps : Path.steps (Path.join root.path name) = ("." :: root) ++ [name] := by
    rw [Path.steps_join hroot hplain, hname.steps]
    rfl
  have hlast : (Path.steps (Path.join root.path name)).getLast? ≠ some "." := by
    rw [hsteps, List.getLast?_concat]
    simpa using hname.ne_dot
  rw [perform, attemptDirectories_of_isCreatable (isCreatable_join hroot htree hname husable
    hdirectory (hplace ▸ hmissing)), startOf, ite_self, Path.steps_withoutSlashes hlast, hsteps,
    attemptAlong_append hlead hdirectory, attemptAlong, if_neg hname.ne_dot,
    if_neg hname.ne_dots, hname.isName]
  simp [hmissing, attemptAlong]

/-- A directory can be made in a directory, unless a file is in the way. -/
theorem isDone_make {name : String} (htree : tree.IsTree) (hname : IsFileName name)
    (husable : Path.isUsable (Path.join root.path name) = true)
    (hdirectory : tree.isDirectory root = true)
    (hfree : tree.kind? (placeOf root name) ≠ some false) :
    ((Deed.make name).perform tree root.path).isDone = true := by
  have hplace : placeOf root name = root ++ [name] := by rw [placeOf, hname.steps]
  by_cases hthere : tree.isDirectory (placeOf root name) = true
  · have hfind := (find?_join hroot hname.isPlain htree).mpr
      ⟨husable, isSome_of_isDirectory hthere, rfl⟩
    rw [perform, attemptDirectories_of_find? hfind hthere]
  · have hmissing : tree.get? (root ++ [name]) = none := by
      by_contra hsome
      rw [← hplace] at hsome
      exact hfree (kind?_of_isSome (Option.isSome_iff_ne_none.mpr hsome) hthere)
    rw [perform_make_of_missing hroot htree hname husable hdirectory hmissing]

/-- The step for runs of deeds: one of them changes no more than all of them may. -/
theorem isChangedBy_perform (hpath : IsPlain deed.path) (hmem : deed ∈ deeds) (tree : FileTree) :
    IsChangedBy deeds root tree (deed.perform tree root.path).tree := by
  intro location
  cases deed with
  | make path =>
    exact (isExtended_make hroot hpath tree location).imp_right fun ⟨hnone, hdirectory, hnew⟩ =>
      Or.inl ⟨hnone, hdirectory, path, hmem, hnew⟩
  | write path content =>
    rcases perform_write_cases tree root.path path content with ⟨place, hwrite, hdone⟩ | hfailed
    · obtain ⟨husable, rfl⟩ := eq_placeOf_of_locate hroot hpath hwrite.locate
      rw [hdone, get?_set tree location _ hwrite.ne_root]
      by_cases hlocation : location = placeOf root path
      · have hfile : (path, content) ∈ deeds.filterMap file? :=
          List.mem_filterMap.mpr ⟨.write path content, hmem, rfl⟩
        exact Or.inr (Or.inr ⟨(path, content), hfile, husable, hlocation, if_pos hlocation⟩)
      · exact Or.inl (if_neg hlocation)
    · rw [hfailed]
      exact Or.inl rfl

/-- Everything that is not on the way to a place is as before. -/
theorem isChangedBy_performAll (hdeeds : ∀ deed ∈ deeds, IsPlain deed.path) (tree : FileTree) :
    IsChangedBy deeds root tree (performAll tree root.path deeds).tree :=
  performAll_induction (motive := IsChangedBy deeds root) (fun _ _ => Or.inl rfl)
    (fun _ _ _ h hlater => h.trans hlater)
    (fun tree deed hmem => isChangedBy_perform hroot (hdeeds deed hmem) hmem tree) tree

/-- Once all is done, each file has its content, provided that no two files have one place. -/
theorem content?_of_isDone (hdeeds : ∀ deed ∈ deeds, IsPlain deed.path)
    (hplaces : ((deeds.filterMap file?).map fun file => Path.steps file.1).Nodup)
    (hdone : (performAll tree root.path deeds).isDone = true) :
    ∀ file ∈ deeds.filterMap file?, Path.isUsable (Path.join root.path file.1) = true ∧
      (performAll tree root.path deeds).tree.content? (placeOf root file.1) =
        some file.2.toUTF8 := by
  induction deeds generalizing tree with
  | nil => exact nofun
  | cons deed deeds ih =>
    obtain ⟨hpath, hrest⟩ := List.forall_mem_cons.mp hdeeds
    by_cases hfirst : (deed.perform tree root.path).isDone = true
    · rw [performAll_cons_of_isDone hfirst] at hdone ⊢
      cases deed with
      | make path =>
        rw [List.filterMap_cons_none rfl] at hplaces ⊢
        exact ih hrest hplaces hdone
      | write path content =>
        have hplain : IsPlain path := hpath
        have hcons : (Deed.write path content :: deeds).filterMap file? =
            (path, content) :: deeds.filterMap file? := List.filterMap_cons_some rfl
        rw [hcons, List.map_cons, List.nodup_cons] at hplaces
        rw [hcons, List.forall_mem_cons]
        refine ⟨?_, ih hrest hplaces.2 hdone⟩
        rcases perform_write_cases tree root.path path content with ⟨place, hwrite, hnext⟩ | hnot
        · obtain ⟨husable, rfl⟩ := eq_placeOf_of_locate hroot hplain hwrite.locate
          refine ⟨husable, ?_⟩
          have hhere : ((Deed.write path content).perform tree root.path).tree.get?
              (placeOf root path) = some (.file content.toUTF8) := by
            rw [hnext, get?_set_self tree hwrite.ne_root]
          -- What comes after this file is written elsewhere.
          rcases isChangedBy_performAll hroot hrest _ (placeOf root path) with
            hsame | ⟨hnone, _⟩ | ⟨file, hfile, _, hplace, _⟩
          · rw [content?, hsame, hhere]
          · rw [hhere] at hnone
            contradiction
          · have hsteps : Path.steps path = Path.steps file.1 := List.append_cancel_left hplace
            exact absurd (List.mem_map.mpr ⟨file, hfile, hsteps.symm⟩) hplaces.1
        · rw [hnot] at hfirst
          contradiction
    · rw [performAll_cons_of_not_isDone hfirst] at hdone
      exact absurd hdone hfirst

/-- Files can be written if the directories for them are there and nothing else is at their places,
as long as their paths are not too long. -/
theorem isDone_performAll_writes {files : List (String × String)} (htree : tree.IsTree)
    (hfiles : ∀ file ∈ files, IsPlain file.1)
    (husable : ∀ file ∈ files, Path.isUsable (Path.join root.path file.1) = true)
    (hparent : ∀ file ∈ files, tree.isDirectory (placeOf root file.1).dropLast = true)
    (hfree : ∀ file ∈ files, tree.isDirectory (placeOf root file.1) = false) :
    (performAll tree root.path (files.map fun file => .write file.1 file.2)).isDone = true := by
  induction files generalizing tree with
  | nil => rfl
  | cons file files ih =>
    obtain ⟨hfile, hfiles⟩ := List.forall_mem_cons.mp hfiles
    obtain ⟨hshort, husable⟩ := List.forall_mem_cons.mp husable
    obtain ⟨haround, hparent⟩ := List.forall_mem_cons.mp hparent
    obtain ⟨hnone, hfree⟩ := List.forall_mem_cons.mp hfree
    have hne := placeOf_ne_nil root file.1
    have hwrite : tree.CanWrite (Path.join root.path file.1) (placeOf root file.1) := by
      refine ⟨?_, hne, hnone⟩
      rw [locate_join hroot hfile, if_pos hshort]
      exact follow_of_isDirectory_dropLast htree (isFileName_of_mem_placeOf hroot hfile) haround
    have hdone : (Deed.write file.1 file.2).perform tree root.path =
        ⟨tree.set (placeOf root file.1) (.file file.2.toUTF8), true⟩ :=
      writeFile_of_canWrite hwrite file.2
    rw [List.map_cons, performAll_cons_of_isDone (by rw [hdone]), hdone]
    refine ih (hwrite.isTree htree _) hfiles husable ?_ ?_
    · exact fun other hother => (hwrite.includes _).isDirectory (hparent other hother)
    · intro other hother
      rw [isDirectory, get?_set tree _ _ hne]
      split_ifs
      · rfl
      · exact hfree other hother

end Places

end Deed

end ReleaseNotes
