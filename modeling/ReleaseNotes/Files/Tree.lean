import ReleaseNotes.Failure
import ReleaseNotes.Files.Path

/-!
Trees of files and directories. Paths are followed from directory to directory; a file that is
written takes the place of the former one.
-/

namespace ReleaseNotes

inductive FileEntry where
  | directory
  | file (content : ByteArray)

/-- What there is at each location. The root is always a directory. -/
structure FileTree where
  entries : List (Location × FileEntry)

namespace FileTree

def empty : FileTree := ⟨[]⟩

def get? (tree : FileTree) (location : Location) : Option FileEntry :=
  if location = [] then some .directory else tree.entries.lookup location

def isDirectory (tree : FileTree) (location : Location) : Bool :=
  match tree.get? location with
  | some .directory => true
  | _ => false

def content? (tree : FileTree) (location : Location) : Option ByteArray :=
  match tree.get? location with
  | some (.file content) => some content
  | _ => none

/-- Follows names from a location on. Each one needs a directory to be looked up in. -/
def follow (tree : FileTree) (location : Location) : List String → Option Location
  | [] => some location
  | name :: names =>
    if tree.isDirectory location then
      if name = "." then tree.follow location names
      else if name = ".." then tree.follow location.dropLast names
      else if Path.isName name then tree.follow (location ++ [name]) names
      else none
    else none

def locate (tree : FileTree) (working : Location) (path : String) : Option Location :=
  if Path.isUsable path then
    tree.follow (if Path.isAbsolute path then [] else working) (Path.steps path)
  else none

def find? (tree : FileTree) (working : Location) (path : String) : Option Location :=
  (tree.locate working path).filter fun location => (tree.get? location).isSome

def exists? (tree : FileTree) (path : String) : Bool :=
  (tree.find? [] path).isSome

def readText? (tree : FileTree) (path : String) : Option String := do
  String.fromUTF8? (← tree.content? (← tree.locate [] path))

def set (tree : FileTree) (location : Location) (entry : FileEntry) : FileTree :=
  ⟨(location, entry) :: tree.entries.filter (·.1 != location)⟩

/-- A tree after an attempt to add something to it, and whether all of it was added. What was added
before something was in the way stays in the tree. -/
structure Attempt where
  tree : FileTree
  isDone : Bool

namespace Attempt

def andThen (attempt : Attempt) (next : FileTree → Attempt) : Attempt :=
  if attempt.isDone then next attempt.tree else attempt

def done? (attempt : Attempt) : Option FileTree :=
  if attempt.isDone then some attempt.tree else none

end Attempt

/-- Creates the directories that are missing on a way, one after the other. A file on it is an
obstacle, and so is a name that nothing can have. A missing directory is not created for dots that
stand for itself. -/
def attemptAlong (tree : FileTree) (location : Location) : List String → Attempt
  | [] => ⟨tree, true⟩
  | name :: names =>
    if name = "." then tree.attemptAlong location names
    else if name = ".." then tree.attemptAlong location.dropLast names
    else if !Path.isName name then ⟨tree, false⟩
    else
      let next := location ++ [name]
      match tree.get? next with
      | none =>
        if names != [] && names.all (· == ".") then ⟨tree, false⟩
        else (tree.set next .directory).attemptAlong next names
      | some .directory => tree.attemptAlong next names
      | some (.file _) => ⟨tree, false⟩

/-- Creates the directory of a path and those around it. Nothing is created for a path that cannot
be followed at all. -/
def attemptDirectories (tree : FileTree) (working : Location) (path : String) : Attempt :=
  if path = "" then ⟨tree, true⟩
  else if !Path.isUsable path || path.toList.contains '\x00' then ⟨tree, false⟩
  else
    tree.attemptAlong (if Path.isAbsolute path then [] else working)
      (Path.steps (Path.withoutSlashes path))

def createDirectories (tree : FileTree) (working : Location) (path : String) : Option FileTree :=
  (tree.attemptDirectories working path).done?

def write (tree : FileTree) (path : String) (content : ByteArray) : Option FileTree := do
  let location ← tree.locate [] path
  if location = [] || tree.isDirectory location then none
  else some (tree.set location (.file content))

theorem lookup_filter_ne {location other : Location} (h : other ≠ location)
    (entries : List (Location × FileEntry)) :
    (entries.filter (·.1 != location)).lookup other = entries.lookup other := by
  induction entries with
  | nil => rfl
  | cons pair rest ih =>
    obtain ⟨key, value⟩ := pair
    by_cases hk : key = location
    · subst hk
      simp [List.lookup_cons, beq_false_of_ne h, ih]
    · by_cases ho : other = key
      · subst ho
        simp [hk]
      · simp [List.lookup_cons, hk, beq_false_of_ne ho, ih]

@[simp] theorem get?_set (tree : FileTree) {location : Location} (other : Location)
    (entry : FileEntry) (h : location ≠ []) :
    (tree.set location entry).get? other =
      if other = location then some entry else tree.get? other := by
  by_cases hroot : other = []
  · subst hroot
    simp [get?, Ne.symm h]
  · by_cases heq : other = location
    · subst heq
      simp [get?, set, hroot]
    · simp [get?, set, hroot, heq, List.lookup_cons, beq_false_of_ne heq,
        lookup_filter_ne heq]

end FileTree

end ReleaseNotes
