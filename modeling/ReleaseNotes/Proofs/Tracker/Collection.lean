import Mathlib
import ReleaseNotes.Proofs.Changes.Document
import ReleaseNotes.Proofs.Release.Bracketing
import ReleaseNotes.Proofs.Release.Grouping
import ReleaseNotes.Tracker.Collection

/-!
The releases of a project. A run that succeeds has read one list from each configured system and one
from each module, in order, and its result is made of these lists. Trackers never list a version
twice, and neither do changes files without problems. Whether they do or not, the result is the same
however the merges of the lists are bracketed.
-/

namespace ReleaseNotes.Project

open Journaled Release

variable {project : Project} {tree : FileTree} {environment : Environment}

/-- An entry has the name of a module and the releases of its changes file. -/
def IsEntryOf (project : Project) (tree : FileTree) (part : Module)
    (entry : String × List Release) : Prop :=
  part.name = entry.1 ∧ ∃ document,
    (ChangesDocument.load tree (project.moduleChangesFile part)).outcome = .ok document ∧
      document.releases = entry.2

/-- The lists that are read in a run: one from each configured system and, under its name, one from
each module. -/
structure IsReading (project : Project) (tree : FileTree) (environment : Environment)
    (systems : List (List Release)) (modules : List (String × List Release)) : Prop where
  systems : List.Forall₂ (fun origin listing =>
    (project.releasesFrom tree environment origin).outcome = .ok listing)
    project.metadata.origins systems
  modules : List.Forall₂ (project.IsEntryOf tree) project.metadata.modules modules

/-- Adding systems succeeds if each can be read, and merges what they hand out. -/
theorem addOrigins_eq_ok_iff {releases result : List Release} {origins : List Origin} :
    (project.addOrigins tree environment releases origins).outcome = .ok result ↔
      ∃ systems, List.Forall₂ (fun origin listing =>
        (project.releasesFrom tree environment origin).outcome = .ok listing) origins systems ∧
        systems.foldl mergeLists releases = result := by
  induction origins generalizing releases with
  | nil => simp [addOrigins]
  | cons origin origins ih =>
    rw [addOrigins, outcome_bind_eq_ok_iff]
    simp only [ih, List.forall₂_cons_left_iff]
    constructor
    · rintro ⟨listing, hlisting, systems, hsystems, hresult⟩
      exact ⟨listing :: systems, ⟨listing, systems, hlisting, hsystems, rfl⟩, hresult⟩
    · rintro ⟨_, ⟨listing, systems, hlisting, hsystems, rfl⟩, hresult⟩
      exact ⟨listing, hlisting, systems, hsystems, hresult⟩

theorem addModules_eq_ok_iff {releases result : List Release} {parts : List Module} :
    (project.addModules tree releases parts).outcome = .ok result ↔
      ∃ modules, List.Forall₂ (project.IsEntryOf tree) parts modules ∧
        attachAll releases modules = result := by
  induction parts generalizing releases with
  | nil => simp [addModules, attachAll]
  | cons part parts ih =>
    rw [addModules, outcome_bind_eq_ok_iff]
    simp only [ih, List.forall₂_cons_left_iff]
    constructor
    · rintro ⟨document, hdocument, modules, hmodules, hresult⟩
      exact ⟨(part.name, document.releases) :: modules,
        ⟨_, modules, ⟨rfl, document, hdocument, rfl⟩, hmodules, rfl⟩, hresult⟩
    · rintro ⟨_, ⟨⟨_, _⟩, modules, ⟨rfl, document, hdocument, rfl⟩, hmodules, rfl⟩, hresult⟩
      exact ⟨document, hdocument, modules, hmodules, hresult⟩

/-- A run succeeds exactly if every list can be read, and then merges and attaches them. -/
theorem releases_eq_ok_iff {releases : List Release} :
    (project.releases tree environment).outcome = .ok releases ↔
      ∃ systems modules, project.IsReading tree environment systems modules ∧
        attachAll (mergeAll systems) modules = releases := by
  rw [Project.releases, outcome_bind_eq_ok_iff]
  simp only [outcome_bind_eq_ok_iff, addOrigins_eq_ok_iff, addModules_eq_ok_iff,
    outcome_pure_eq_ok_iff]
  constructor
  · rintro ⟨_, ⟨systems, hsystems, rfl⟩, _, ⟨modules, hmodules, rfl⟩, _, _, rfl⟩
    exact ⟨systems, modules, ⟨hsystems, hmodules⟩, rfl⟩
  · rintro ⟨systems, modules, ⟨hsystems, hmodules⟩, rfl⟩
    exact ⟨_, ⟨systems, hsystems, rfl⟩, _, ⟨modules, hmodules, rfl⟩, (), rfl, rfl⟩

/-- Merging is associative, and empty and missing lists are neutral. A run hence collects the same
releases in the same order, however the merges of the lists from the systems are bracketed. -/
theorem releases_eq_of_bracketing :
    (∀ first second third : Option (List Release),
      merge (some (merge first second)) third = merge first (some (merge second third))) ∧
    (∀ listing : List Release,
      merge (some []) (some listing) = listing ∧ merge (some listing) (some []) = listing ∧
        merge none (some listing) = listing ∧ merge (some listing) none = listing) ∧
    ∀ (project : Project) (tree : FileTree) (environment : Environment) (releases : List Release),
      (project.releases tree environment).outcome = .ok releases ↔
        ∃ systems modules merged, project.IsReading tree environment systems modules ∧
          attachAll merged modules = releases ∧
          ∀ brackets : Bracketing, brackets.lists = systems →
            brackets.merged.getD [] = merged := by
  refine ⟨?_, ?_, ?_⟩
  · intro first second third
    simp only [merge_eq_mergeLists, Option.getD_some, mergeLists_assoc]
  · intro listing
    exact ⟨nil_mergeLists listing, mergeLists_nil listing, rfl, rfl⟩
  · intro project tree environment releases
    rw [releases_eq_ok_iff]
    constructor
    · rintro ⟨systems, modules, hreading, heq⟩
      refine ⟨systems, modules, mergeAll systems, hreading, heq, ?_⟩
      intro brackets hlists
      rw [brackets.merged_eq_mergeAll, hlists]
    · rintro ⟨systems, modules, merged, hreading, heq, hmerged⟩
      obtain ⟨brackets, hlists⟩ := Bracketing.exists_lists_eq systems
      have hall : mergeAll systems = merged := by
        rw [← hlists, ← brackets.merged_eq_mergeAll]
        exact hmerged brackets hlists
      exact ⟨systems, modules, hreading, hall ▸ heq⟩

/-- No changes file that can be read has a problem, neither that of the project nor one of a
module. -/
structure HasValidChanges (project : Project) (tree : FileTree) : Prop where
  own : ∀ document, (ChangesDocument.load tree project.changesFile).outcome = .ok document →
    document.problems = []
  modules : ∀ part ∈ project.metadata.modules, ∀ document,
    (ChangesDocument.load tree (project.moduleChangesFile part)).outcome = .ok document →
      document.problems = []

/-- A changes file without problems is a listing. -/
theorem isListing_of_load {path : String} {document : ChangesDocument}
    (hload : (ChangesDocument.load tree path).outcome = .ok document)
    (hvalid : document.problems = []) : IsListing document.releases :=
  ⟨ChangesDocument.nodup_versions_of_problems_eq_nil hvalid,
    ChangesDocument.components_of_load hload⟩

theorem isListing_ofIssues (mapping : TypeMapping) (issues : List Issue) :
    IsListing (ofIssues mapping issues) := by
  refine ⟨nodup_versions_ofIssues mapping issues, fun release hrelease => ?_⟩
  rw [eq_ofActions_of_mem_ofIssues hrelease]
  rfl

theorem releasesFrom_changesFile_of_load {document : ChangesDocument}
    (h : (ChangesDocument.load tree project.changesFile).outcome = .ok document) :
    (project.releasesFrom tree environment .changesFile).outcome = .ok document.releases := by
  rw [releasesFrom, if_neg (by decide), outcome_bind_eq_ok_iff]
  exact ⟨document, h, rfl⟩

/-- Whatever the system is, it hands out a listing if the changes files are valid. -/
theorem isListing_of_releasesFrom (hvalid : project.HasValidChanges tree) {origin : Origin}
    {listing : List Release}
    (h : (project.releasesFrom tree environment origin).outcome = .ok listing) :
    IsListing listing := by
  unfold releasesFrom at h
  split at h
  · simp only [Source.releases, outcome_bind_eq_ok_iff, outcome_pure_eq_ok_iff] at h
    obtain ⟨source, _, issues, _, mapping, _, rfl⟩ := h
    exact isListing_ofIssues mapping issues
  · simp only [outcome_bind_eq_ok_iff, outcome_pure_eq_ok_iff] at h
    obtain ⟨document, hload, rfl⟩ := h
    exact isListing_of_load hload (hvalid.own document hload)

/-- If no changes file has problems then a run that succeeds collects exactly what it read. -/
theorem releases_isCollection (hvalid : project.HasValidChanges tree) {releases : List Release}
    (h : (project.releases tree environment).outcome = .ok releases) :
    ∃ systems modules, project.IsReading tree environment systems modules ∧
      IsCollection systems modules releases := by
  obtain ⟨systems, modules, hreading, rfl⟩ := releases_eq_ok_iff.mp h
  refine ⟨systems, modules, hreading, isCollection_attachAll_mergeAll ?_ ?_⟩
  · intro listing hlisting
    obtain ⟨origin, _, hread⟩ := exists_of_forall₂ hreading.systems hlisting
    exact isListing_of_releasesFrom hvalid hread
  · intro entry hentry
    obtain ⟨part, hpart, _, document, hload, heq⟩ := exists_of_forall₂ hreading.modules hentry
    rw [← heq]
    exact isListing_of_load hload (hvalid.modules part hpart document hload)

def sampleProject : Project where
  baseDirectory := "/p"
  metadata :=
    { Metadata.ofName "P" "1" with
      origins := [.changesFile, .changesFile]
      modules := [⟨"core", "core"⟩] }
  trackers := .default

def sampleTree : FileTree where
  entries :=
    [ (["p"], .directory),
      (["p", "harvest"], .directory),
      (["p", "harvest", "changes.yaml"],
        .file "releases: [{version: 1, actions: [{type: fix, text: Sort.}]}]".toUTF8),
      (["p", "core"], .directory),
      (["p", "core", "harvest"], .directory),
      (["p", "core", "harvest", "changes.yaml"],
        .file "releases: [{version: 2}, {version: 1}]".toUTF8) ]

def sampleFix : Action := ⟨"fix", "Sort.", none, [], none, [], none, none⟩

def sampleReleases : List Release :=
  [ ⟨"1", none, none, [sampleFix, sampleFix], [⟨"core", none, []⟩]⟩,
    ⟨"2", none, none, [], [⟨"core", none, []⟩]⟩ ]

theorem load_changesFile_sample :
    (ChangesDocument.load sampleTree sampleProject.changesFile).outcome =
      .ok ⟨none, none, none, [⟨"1", none, none, [sampleFix], []⟩]⟩ := by
  have hpath : sampleProject.changesFile = "/p/harvest/changes.yaml" := rfl
  have hexists : sampleTree.exists? "/p/harvest/changes.yaml" := by cbv
  have hread : sampleTree.readText? "/p/harvest/changes.yaml" =
      some "releases: [{version: 1, actions: [{type: fix, text: Sort.}]}]" := by cbv
  have hparse : ChangesDocument.parse
      "releases: [{version: 1, actions: [{type: fix, text: Sort.}]}]" =
        .ok ⟨none, none, none, [⟨"1", none, none, [sampleFix], []⟩]⟩ := by cbv
  rw [hpath]
  exact ChangesDocument.load_of_readText hexists hread hparse

theorem load_moduleChangesFile_sample :
    (ChangesDocument.load sampleTree (sampleProject.moduleChangesFile ⟨"core", "core"⟩)).outcome =
      .ok ⟨none, none, none, [⟨"2", none, none, [], []⟩, ⟨"1", none, none, [], []⟩]⟩ := by
  have hpath : sampleProject.moduleChangesFile ⟨"core", "core"⟩ =
      "/p/core/harvest/changes.yaml" := rfl
  have hexists : sampleTree.exists? "/p/core/harvest/changes.yaml" := by cbv
  have hread : sampleTree.readText? "/p/core/harvest/changes.yaml" =
      some "releases: [{version: 2}, {version: 1}]" := by cbv
  have hparse : ChangesDocument.parse "releases: [{version: 2}, {version: 1}]" =
      .ok ⟨none, none, none, [⟨"2", none, none, [], []⟩, ⟨"1", none, none, [], []⟩]⟩ := by cbv
  rw [hpath]
  exact ChangesDocument.load_of_readText hexists hread hparse

theorem hasValidChanges_sample : sampleProject.HasValidChanges sampleTree := by
  constructor
  · intro document hload
    rw [load_changesFile_sample, Except.ok.injEq] at hload
    rw [← hload]
    decide
  · intro part hpart document hload
    rw [List.mem_singleton.mp hpart, load_moduleChangesFile_sample, Except.ok.injEq] at hload
    rw [← hload]
    decide

theorem isReading_sample : sampleProject.IsReading sampleTree ⟨.offline, none, none⟩
    [[⟨"1", none, none, [sampleFix], []⟩], [⟨"1", none, none, [sampleFix], []⟩]]
    [("core", [⟨"2", none, none, [], []⟩, ⟨"1", none, none, [], []⟩])] := by
  have hown : (sampleProject.releasesFrom sampleTree ⟨.offline, none, none⟩ .changesFile).outcome =
      .ok [⟨"1", none, none, [sampleFix], []⟩] :=
    releasesFrom_changesFile_of_load load_changesFile_sample
  constructor
  · exact .cons hown (.cons hown .nil)
  · exact .cons ⟨rfl, _, load_moduleChangesFile_sample, rfl⟩ .nil

/-- Two systems and a module have the same version, and the module has another one as well. -/
theorem releases_isCollection_sample :
    sampleProject.HasValidChanges sampleTree ∧
      (sampleProject.releases sampleTree ⟨.offline, none, none⟩).outcome = .ok sampleReleases ∧
      ∃ systems modules,
        sampleProject.IsReading sampleTree ⟨.offline, none, none⟩ systems modules ∧
          IsCollection systems modules sampleReleases := by
  have hreleases : (sampleProject.releases sampleTree ⟨.offline, none, none⟩).outcome =
      .ok sampleReleases := by
    rw [releases_eq_ok_iff]
    exact ⟨_, _, isReading_sample, by decide⟩
  exact ⟨hasValidChanges_sample, hreleases, releases_isCollection hasValidChanges_sample hreleases⟩

end ReleaseNotes.Project
