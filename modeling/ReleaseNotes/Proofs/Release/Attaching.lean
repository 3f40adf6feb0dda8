import ReleaseNotes.Proofs.Release.Merging

/-!
What attaching a module keeps. The versions are those of a merged list. A release of the project
takes one more component if the module has its version, and a version of the module alone comes with
its date and a single component.
-/

namespace ReleaseNotes.Release

@[simp] theorem attach_version (name : String) (child : List Release) (release : Release) :
    (attach name child release).version = release.version := by
  unfold attach
  split <;> rfl

@[simp] theorem ofModule_version (name : String) (own : Release) :
    (ofModule name own).version = own.version := rfl

def component? (name : String) (child : List Release) (version : String) : Option Component :=
  (find? child version).map (Component.ofRelease name)

/-- Attaching a module adds a component for it, if the module has the version, and nothing else. -/
theorem attach_eq (name : String) (child : List Release) (release : Release) :
    attach name child release = { release with
      components := release.components ++ (component? name child release.version).toList } := by
  unfold attach component?
  cases find? child release.version with
  | some own => rfl
  | none => simp

/-- The versions that only the module has come behind those of the parent. -/
@[simp] theorem versions_mergeModule (parent : List Release) (name : String)
    (child : List Release) :
    versions (mergeModule parent name child) =
      versions parent ++ (versions child).filter fun version => version ∉ versions parent := by
  rw [mergeModule, versions_append, versions_map (attach_version name child),
    versions_map (ofModule_version name), versions_missingFrom]

/-- A version is looked up in the releases with a module by looking it up on both sides. -/
theorem find?_mergeModule (parent : List Release) (name : String) (child : List Release)
    (version : String) :
    find? (mergeModule parent name child) version =
      ((find? parent version).map (attach name child)).or
        ((find? child version).map (ofModule name)) := by
  rw [mergeModule, find?, List.find?_append, ← find?, ← find?,
    find?_map (attach_version name child), find?_map (ofModule_version name)]
  cases h : find? parent version with
  | some release => rfl
  | none => rw [find?_missingFrom (find?_eq_none_iff.mp h)]

end ReleaseNotes.Release
