import ReleaseNotes.Project.Load
import ReleaseNotes.Proofs.Changes.Problems
import ReleaseNotes.Proofs.Journal
import ReleaseNotes.Proofs.Release.Listing
import ReleaseNotes.Proofs.Yaml.Decode

/-!
What is known of the releases of a changes file: they have no components, and if the file has no
problems then no version is listed twice.
-/

namespace ReleaseNotes.ChangesDocument

open Text Yaml Decoder

/-- No two releases of a document without problems have the same version. -/
theorem nodup_versions_of_problems_eq_nil {document : ChangesDocument}
    (h : document.problems = []) : (Release.versions document.releases).Nodup := by
  have hnodup := (problems_eq_nil_iff.mp h).2
  have hmap : (document.releases.map fun release => trim release.version) =
      (Release.versions document.releases).map trim := by
    rw [Release.versions, List.map_map]
    rfl
  rw [hmap] at hnodup
  exact List.Nodup.of_map trim hnodup

theorem components_of_release? {fields : Fields} {release : Release}
    (h : release? fields = some release) : release.components = [] := by
  simp only [release?, Option.bind_eq_bind, Option.bind_eq_some_iff, Option.pure_def,
    Option.some.injEq] at h
  obtain ⟨_, _, _, _, _, _, _, _, rfl⟩ := h
  rfl

theorem exists_entry_of_document? {fields : Fields} {document : ChangesDocument}
    (h : document? fields = some document) {release : Release}
    (hrelease : release ∈ document.releases) :
    ∃ inner, fields.IsEntry "releases" inner ∧ release? inner = some release := by
  simp only [document?, Option.bind_eq_bind, Option.bind_eq_some_iff, Option.pure_def,
    Option.some.injEq] at h
  obtain ⟨_, _, _, _, _, _, releases, hreleases, rfl⟩ := h
  exact exists_entry_of_withDefault? hreleases hrelease

/-- A parsed document was read from the entries of the record that is the whole file. -/
theorem exists_top_of_parse {source : String} {document : ChangesDocument}
    (h : parse source = .ok document) :
    ∃ top : Fields, top.IsTop source ∧ document? top = some document := by
  unfold parse at h
  cases hdecode : decode (record ["title", "author", "author_email", "releases"] document?)
    source with
  | error cause => simp [hdecode, Except.mapError] at h
  | ok decoded =>
    simp only [hdecode, Except.mapError, Except.ok.injEq] at h
    exact h ▸ exists_top_of_decode hdecode

/-- Releases of a changes file have no components. These come from the modules of a project only. -/
theorem components_of_parse {source : String} {document : ChangesDocument}
    (h : parse source = .ok document) :
    ∀ release ∈ document.releases, release.components = [] := by
  intro release hrelease
  obtain ⟨top, _, htop⟩ := exists_top_of_parse h
  obtain ⟨fields, _, hfields⟩ := exists_entry_of_document? htop hrelease
  exact components_of_release? hfields

/-- The releases of a changes file, which may be missing, have no components. -/
theorem components_of_load {tree : FileTree} {path : String} {document : ChangesDocument}
    (h : (load tree path).outcome = .ok document) :
    ∀ release ∈ document.releases, release.components = [] := by
  unfold load at h
  split at h
  · cases hread : Project.readFile tree (.readingChanges path) path with
    | error failure =>
      simp only [hread] at h
      contradiction
    | ok source =>
      cases hparse : parse source with
      | error failure => simp [hread, hparse, Bind.bind, Except.bind, Except.mapError] at h
      | ok parsed =>
        simp only [hread, hparse, Bind.bind, Except.bind, Except.mapError, Except.ok.injEq] at h
        exact h ▸ components_of_parse hparse
  · rw [Journaled.outcome_bind_eq_ok_iff] at h
    obtain ⟨_, _, hempty⟩ := h
    rw [← Journaled.outcome_pure_eq_ok_iff.mp hempty]
    simp [empty]

theorem load_of_readText {tree : FileTree} {path source : String} {document : ChangesDocument}
    (hexists : tree.exists? path) (hread : tree.readText? path = some source)
    (hparse : parse source = .ok document) : (load tree path).outcome = .ok document := by
  rw [load, if_pos hexists]
  simp only [Project.readFile, hread, hparse, Bind.bind, Except.bind, Except.mapError]

end ReleaseNotes.ChangesDocument
