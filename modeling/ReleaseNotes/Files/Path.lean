import ReleaseNotes.Text.Separated

/-!
Paths of files, as texts with slashes, and locations, which are the names on the way from the root.
-/

namespace ReleaseNotes

open Text

/-- The names on the way from the root to a file or a directory. -/
abbrev Location := List String

def Location.path (location : Location) : String :=
  "/" ++ joinWith "/" location

namespace Path

def isAbsolute (path : String) : Bool :=
  path.toList.head? == some '/'

/-- A path as seen from another one. Only the texts are put together. -/
def join (base path : String) : String :=
  if isAbsolute path || base = "" then path
  else if base.toList.getLast? == some '/' then base ++ path
  else base ++ "/" ++ path

/-- A path that can be followed at all: not empty, and at most 4095 bytes. -/
def isUsable (path : String) : Bool :=
  path != "" && path.utf8ByteSize ≤ 4095

/-- A name that something can have: at most 255 bytes, and none of them zero. -/
def isName (name : String) : Bool :=
  name.utf8ByteSize ≤ 255 && !name.toList.contains '\x00'

/-- The names in a path, with one dot for an empty name. -/
def steps (path : String) : List String :=
  (splitAt '/' path).map fun name => if name = "" then "." else name

def withoutSlashes (path : String) : String :=
  String.ofList (dropTrailing (· == '/') path.toList)

end Path

end ReleaseNotes
