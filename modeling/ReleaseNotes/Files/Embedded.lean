import ReleaseNotes.Files.Tree

/-!
Directories and files that are part of the program. They are written below a directory of a tree,
one after the other in the order in which they are listed.
-/

namespace ReleaseNotes

open FileTree

/-- A file or a directory with what is in it. The paths are those below the outermost directory. -/
inductive Embedded where
  | file (path content : String)
  | directory (path : String) (entries : List Embedded)

namespace Embedded

mutual

def files : Embedded → List (String × String)
  | .file path content => [(path, content)]
  | .directory _ entries => filesOfAll entries

def filesOfAll : List Embedded → List (String × String)
  | [] => []
  | entry :: entries => entry.files ++ filesOfAll entries

end

def writeFile (tree : FileTree) (path content : String) : Attempt :=
  match tree.write path content.toUTF8 with
  | some written => ⟨written, true⟩
  | none => ⟨tree, false⟩

mutual

/-- Creates the directories and writes the files, up to the first thing that is in the way. -/
def extract (tree : FileTree) (base : String) : Embedded → Attempt
  | .file path content => writeFile tree (Path.join base path) content
  | .directory path entries =>
    (tree.attemptDirectories [] (Path.join base path)).andThen fun prepared =>
      extractAll prepared base entries

def extractAll (tree : FileTree) (base : String) : List Embedded → Attempt
  | [] => ⟨tree, true⟩
  | entry :: entries =>
    (extract tree base entry).andThen fun extracted => extractAll extracted base entries

end

end Embedded

end ReleaseNotes
