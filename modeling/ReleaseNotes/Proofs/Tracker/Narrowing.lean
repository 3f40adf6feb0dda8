import ReleaseNotes.Proofs.Journal
import ReleaseNotes.Proofs.Release.Grouping
import ReleaseNotes.Tracker.Source

/-!
Narrowing what a tracker hands out. An issue concerns a project if one of its fix versions begins as
the versions of the project do and, if only the current version is wanted, if that version is among
them. An issue is kept with all of its fix versions or not at all, so the releases have all fix
versions of the issues that concern the project, also those that belong to other projects.
-/

namespace ReleaseNotes

namespace Issue

variable {issues kept : List Issue} {start version : String}

theorem hasVersionFrom_iff {issue : Issue} :
    issue.hasVersionFrom start = true ↔
      ∃ version ∈ issue.fixVersions, start.toList <+: version.toList := by
  simp only [hasVersionFrom, List.any_eq_true, List.isPrefixOf_iff_prefix]

/-- A selection fails exactly if it is empty. -/
theorem selected_eq_ok_iff {selected : List Issue} {cause : Cause} :
    (match selected with
      | [] => Except.error cause
      | kept => .ok kept) = .ok kept ↔ selected = kept ∧ kept ≠ [] := by
  split
  · refine ⟨nofun, ?_⟩
    rintro ⟨rfl, hkept⟩
    exact absurd rfl hkept
  · rename_i hselected
    rw [Except.ok.injEq]
    refine ⟨?_, And.left⟩
    rintro rfl
    exact ⟨rfl, hselected⟩

/-- Issues are kept whole if one of their versions has the prefix, and there must be one. -/
theorem withVersionPrefix_eq_ok_iff :
    withVersionPrefix issues start = .ok kept ↔
      issues.filter (hasVersionFrom start) = kept ∧ kept ≠ [] :=
  selected_eq_ok_iff

theorem forVersion_eq_ok_iff :
    forVersion issues version = .ok kept ↔
      issues.filter (·.fixVersions.contains (Version.stripSnapshot version)) = kept ∧ kept ≠ [] :=
  selected_eq_ok_iff

end Issue

namespace Source

open Release

variable {source : Source} {project : Metadata} {issues kept : List Issue}
  {releases : List Release}

/-- The version of a project in its tracker, without the mark of a version under development. -/
def currentVersion (project : Metadata) : String :=
  Version.stripSnapshot project.prefixedVersion

/-- An issue concerns a project if it has a fix version with the beginning of the versions of the
project and, if only the current version is wanted, the current version among its fix versions. -/
def Concerns (project : Metadata) (issue : Issue) : Prop :=
  (∀ start ∈ versionStart? project, ∃ version ∈ issue.fixVersions,
    start.toList <+: version.toList) ∧
  (project.onlyCurrentVersion = true → currentVersion project ∈ issue.fixVersions)

instance (project : Metadata) : DecidablePred (Concerns project) := by
  intro issue
  unfold Concerns
  infer_instance

def isCurrent (project : Metadata) (issue : Issue) : Bool :=
  !project.onlyCurrentVersion || issue.fixVersions.contains (currentVersion project)

theorem isCurrent_iff {issue : Issue} :
    isCurrent project issue = true ↔
      (project.onlyCurrentVersion = true → currentVersion project ∈ issue.fixVersions) := by
  cases hcurrent : project.onlyCurrentVersion <;> simp [isCurrent, hcurrent]

theorem selectCurrent_eq_ok_iff :
    (if project.onlyCurrentVersion then Issue.forVersion issues project.prefixedVersion
      else .ok issues) = .ok kept ↔
      issues.filter (isCurrent project) = kept ∧
        (project.onlyCurrentVersion = true → kept ≠ []) := by
  unfold isCurrent
  cases hcurrent : project.onlyCurrentVersion with
  | false => simp
  | true =>
    rw [if_pos rfl, Issue.forVersion_eq_ok_iff]
    simp [currentVersion]

/-- The kept issues are those that concern the project. If there is something to select by then
there must be one. -/
theorem narrowed_eq_ok_iff :
    narrowed project issues = .ok kept ↔
      issues.filter (Concerns project) = kept ∧
        (versionStart? project ≠ none ∨ project.onlyCurrentVersion = true → kept ≠ []) := by
  cases hstart : versionStart? project with
  | none =>
    have hconcerns : (fun issue => decide (Concerns project issue)) = isCurrent project := by
      funext issue
      rw [Bool.eq_iff_iff, decide_eq_true_iff, isCurrent_iff]
      simp [Concerns, hstart]
    simp [narrowed, hstart, bind_eq_ok_iff, selectCurrent_eq_ok_iff, hconcerns]
  | some start =>
    have hconcerns : (fun issue => decide (Concerns project issue)) = fun issue =>
        isCurrent project issue && issue.hasVersionFrom start := by
      funext issue
      rw [Bool.eq_iff_iff, decide_eq_true_iff, Bool.and_eq_true, isCurrent_iff,
        Issue.hasVersionFrom_iff, and_comm]
      simp [Concerns, hstart]
    simp only [narrowed, hstart, bind_eq_ok_iff, selectCurrent_eq_ok_iff,
      Issue.withVersionPrefix_eq_ok_iff, hconcerns, ← List.filter_filter]
    constructor
    · rintro ⟨_, ⟨rfl, hfirst⟩, rfl, hkept⟩
      refine ⟨rfl, fun _ => ?_⟩
      cases hcurrent : project.onlyCurrentVersion with
      | false => simpa [isCurrent, hcurrent] using hfirst
      | true => exact hkept hcurrent
    · rintro ⟨rfl, hkept⟩
      have hne := hkept (Or.inl nofun)
      refine ⟨_, ⟨rfl, ?_⟩, rfl, fun _ => hne⟩
      intro hnil
      rw [hnil] at hne
      exact hne rfl

/-- A run succeeds exactly if the issues can be downloaded and narrowed and the types of issues have
a mapping. Its releases are made of the issues that concern the project. -/
theorem releases_eq_ok_iff :
    (source.releases project).outcome = .ok releases ↔
      ∃ issues, source.fetch.outcome = .ok issues ∧
        (versionStart? project ≠ none ∨ project.onlyCurrentVersion = true →
          issues.filter (Concerns project) ≠ []) ∧
        ∃ mapping, typeMapping source.name project = .ok mapping ∧
          ofIssues mapping (issues.filter (Concerns project)) = releases := by
  simp only [Source.releases, Source.issues, Journaled.outcome_bind_eq_ok_iff,
    Journaled.outcome_within_eq_ok_iff, Journaled.outcome_ofExcept_eq_ok_iff,
    Journaled.outcome_pure_eq_ok_iff, narrowed_eq_ok_iff]
  constructor
  · rintro ⟨_, ⟨issues, hissues, rfl, hkept⟩, mapping, hmapping, hreleases⟩
    exact ⟨issues, hissues, hkept, mapping, hmapping, hreleases⟩
  · rintro ⟨issues, hissues, hkept, mapping, hmapping, hreleases⟩
    exact ⟨_, ⟨issues, hissues, rfl, hkept⟩, mapping, hmapping, hreleases⟩

section Kept

variable (mapping : TypeMapping)

/-- All versions of the issues that are kept have a release. -/
theorem mem_versions_kept (version : String) :
    version ∈ versions (ofIssues mapping (issues.filter (Concerns project))) ↔
      ∃ issue ∈ issues, Concerns project issue ∧ version ∈ issue.fixVersions := by
  rw [versions_ofIssues, (Version.newestFirst_perm _).mem_iff, mem_fixVersions]
  simp only [List.mem_filter, decide_eq_true_iff, and_assoc]

theorem forall_versions_kept (P : String → Prop) :
    (∀ version ∈ versions (ofIssues mapping (issues.filter (Concerns project))), P version) ↔
      ∀ issue ∈ issues, Concerns project issue → ∀ version ∈ issue.fixVersions, P version := by
  simp only [mem_versions_kept]
  constructor
  · intro hall issue hissue hconcerns version hversion
    exact hall version ⟨issue, hissue, hconcerns, hversion⟩
  · rintro hall version ⟨issue, hissue, hconcerns, hversion⟩
    exact hall issue hissue hconcerns version hversion

theorem exists_concerns (h : issues.filter (Concerns project) ≠ []) :
    ∃ issue ∈ issues, Concerns project issue := by
  obtain ⟨issue, hissue⟩ := List.exists_mem_of_ne_nil _ h
  rw [List.mem_filter, decide_eq_true_iff] at hissue
  exact ⟨issue, hissue⟩

end Kept

/-- What the releases of a tracker are for a project. Their versions are the fix versions of the
issues that concern the project, whether or not they are versions of the project. Some have the
beginning of its versions, and the current version is there if only that is wanted; no other ones
are there exactly if the issues that concern the project have no other fix versions. -/
structure IsNarrowing (project : Metadata) (issues : List Issue) (releases : List Release) :
    Prop where
  mem_versions : ∀ version, version ∈ versions releases ↔
    ∃ issue ∈ issues, Concerns project issue ∧ version ∈ issue.fixVersions
  exists_start : ∀ start ∈ versionStart? project,
    ∃ release ∈ releases, start.toList <+: release.version.toList
  all_start_iff : ∀ start ∈ versionStart? project,
    (∀ release ∈ releases, start.toList <+: release.version.toList) ↔
      ∀ issue ∈ issues, Concerns project issue → ∀ version ∈ issue.fixVersions,
        start.toList <+: version.toList
  exists_current : project.onlyCurrentVersion = true →
    ∃ release ∈ releases, release.version = currentVersion project
  only_current_iff : project.onlyCurrentVersion = true →
    ((∃ release, releases = [release] ∧ release.version = currentVersion project) ↔
      ∀ issue ∈ issues, Concerns project issue → ∀ version ∈ issue.fixVersions,
        version = currentVersion project)

/-- A list without repeated versions is a single release exactly if all of it has one version. -/
theorem single_release_iff (hnodup : (versions releases).Nodup) {version : String}
    (hmem : version ∈ versions releases) :
    (∃ release, releases = [release] ∧ release.version = version) ↔
      ∀ other ∈ versions releases, other = version := by
  rw [← List.map_eq_singleton_iff, ← List.perm_singleton, ← versions,
    List.perm_ext_iff_of_nodup hnodup (List.nodup_singleton version)]
  constructor
  · intro h other hother
    exact List.mem_singleton.mp ((h other).mp hother)
  · intro h other
    rw [List.mem_singleton]
    refine ⟨h other, ?_⟩
    rintro rfl
    exact hmem

/-- The releases of a tracker have all fix versions of the issues that concern the project, and the
version filters hold for the releases exactly if they hold for these fix versions. -/
theorem releases_isNarrowing (h : (source.releases project).outcome = .ok releases) :
    ∃ issues, source.fetch.outcome = .ok issues ∧ IsNarrowing project issues releases := by
  obtain ⟨issues, hissues, hkept, mapping, _, rfl⟩ := releases_eq_ok_iff.mp h
  have hcurrent : project.onlyCurrentVersion = true →
      currentVersion project ∈ versions (ofIssues mapping (issues.filter (Concerns project))) := by
    intro honly
    obtain ⟨issue, hissue, hconcerns⟩ := exists_concerns (hkept (Or.inr honly))
    exact (mem_versions_kept mapping _).mpr ⟨issue, hissue, hconcerns, hconcerns.2 honly⟩
  refine ⟨issues, hissues, mem_versions_kept mapping, ?_, ?_, ?_, ?_⟩
  · intro start hstart
    have hsome : versionStart? project ≠ none := Option.ne_none_iff_exists'.mpr ⟨start, hstart⟩
    obtain ⟨issue, hissue, hconcerns⟩ := exists_concerns (hkept (Or.inl hsome))
    obtain ⟨version, hversion, hprefix⟩ := hconcerns.1 start hstart
    obtain ⟨release, hrelease, rfl⟩ := mem_versions.mp
      ((mem_versions_kept mapping version).mpr ⟨issue, hissue, hconcerns, hversion⟩)
    exact ⟨release, hrelease, hprefix⟩
  · intro start _
    rw [← forall_versions_kept mapping, versions, List.forall_mem_map]
  · intro honly
    exact mem_versions.mp (hcurrent honly)
  · intro honly
    rw [single_release_iff (nodup_versions_ofIssues _ _) (hcurrent honly), forall_versions_kept]

def sampleIssue : Issue :=
  { Issue.ofKey "EX-1" "Sort." with fixVersions := ["ex-1.1", "other-2.0"] }

def sampleSource : Source := ⟨"Jira", .succeed [sampleIssue]⟩

def sampleProject : Metadata :=
  { Metadata.ofName "Example" "1.1-SNAPSHOT" with
    versionPrefix := some "ex-"
    onlyCurrentVersion := true }

def sampleAction : Action := ⟨"", "Sort.", some "EX-1", [], none, [], none, none⟩

theorem releases_sample : (sampleSource.releases sampleProject).outcome =
    .ok [ofActions "other-2.0" [sampleAction], ofActions "ex-1.1" [sampleAction]] := by
  rw [releases_eq_ok_iff]
  refine ⟨_, rfl, by decide +kernel, _, rfl, ?_⟩
  have hkept : [sampleIssue].filter (Concerns sampleProject) = [sampleIssue] := by decide +kernel
  have hversions : fixVersions [sampleIssue] = ["ex-1.1", "other-2.0"] := by decide
  have hitems : Version.items "ex-1.1" = [.qualifier "ex", .number 1, .number 1] := by
    decide +kernel
  have hothers : Version.items "other-2.0" = [.qualifier "other", .number 2, .number 0] := by
    decide +kernel
  have hqualifiers : Version.compareItem (.qualifier "other") (.qualifier "ex") = .gt := by
    decide +kernel
  have hnewer : Version.isNotOlder "ex-1.1" "other-2.0" = false := by
    rw [Version.isNotOlder, Version.compare, hitems, hothers, Version.compareItems, hqualifiers]
    rfl
  have hsorted : Version.newestFirst ["ex-1.1", "other-2.0"] = ["other-2.0", "ex-1.1"] := by
    simp [Version.newestFirst, List.mergeSort, List.MergeSort.Internal.splitInTwo, hnewer]
  rw [hkept, ofIssues_eq_map, hversions, hsorted]
  rfl

theorem releases_isNarrowing_sample :
    (sampleSource.releases sampleProject).outcome =
        .ok [ofActions "other-2.0" [sampleAction], ofActions "ex-1.1" [sampleAction]] ∧
      ∃ issues, sampleSource.fetch.outcome = .ok issues ∧ IsNarrowing sampleProject issues
        [ofActions "other-2.0" [sampleAction], ofActions "ex-1.1" [sampleAction]] :=
  ⟨releases_sample, releases_isNarrowing releases_sample⟩

/-- The filters do not hold for the releases: a version of another project comes with an issue that
is fixed in the current version of the project as well. -/
theorem releases_have_foreign_version :
    (sampleSource.releases sampleProject).outcome =
        .ok [ofActions "other-2.0" [sampleAction], ofActions "ex-1.1" [sampleAction]] ∧
      ¬∀ (source : Source) (project : Metadata) (releases : List Release),
        (source.releases project).outcome = .ok releases →
          (∀ start ∈ versionStart? project,
            ∀ release ∈ releases, start.toList <+: release.version.toList) ∧
          (project.onlyCurrentVersion = true →
            ∃ release, releases = [release] ∧ release.version = currentVersion project) := by
  refine ⟨releases_sample, fun hfilters => ?_⟩
  obtain ⟨hstart, _⟩ := hfilters _ _ _ releases_sample
  have hforeign := hstart "ex-" (by decide) _ List.mem_cons_self
  exact absurd hforeign (by decide)

end Source

end ReleaseNotes
