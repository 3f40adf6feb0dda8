import ReleaseNotes.Release.Basic

/-!
Merging lists of releases: those of several systems by adding up the actions of each version, and
those of a module by attaching them to the releases of the project as components.
-/

namespace ReleaseNotes.Release

def complete (others : List Release) (release : Release) : Release :=
  match find? others release.version with
  | some other => release.withActionsOf other
  | none => release

def missingFrom (known releases : List Release) : List Release :=
  releases.filter fun release => (find? known release.version).isNone

/-- All releases of two lists. What is known of a version beside its actions comes from the first
list, and versions of the second list alone follow at the end. -/
def mergeLists (first second : List Release) : List Release :=
  first.map (complete second) ++ missingFrom first second

/-- Merges lists of which each may be missing. -/
def merge : Option (List Release) → Option (List Release) → List Release
  | none, none => []
  | some first, none => first
  | none, some second => second
  | some first, some second => mergeLists first second

def attach (name : String) (child : List Release) (release : Release) : Release :=
  match find? child release.version with
  | some own => release.withComponent (.ofRelease name own)
  | none => release

def ofModule (name : String) (own : Release) : Release :=
  ⟨own.version, own.date, none, [], [.ofRelease name own]⟩

/-- The releases of a project with those of a module, as components under the name of the
module. -/
def mergeModule (parent : List Release) (name : String) (child : List Release) : List Release :=
  parent.map (attach name child) ++ (missingFrom parent child).map (ofModule name)

end ReleaseNotes.Release
