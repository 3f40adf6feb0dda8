import ReleaseNotes.Proofs.Release.Listing
import ReleaseNotes.Proofs.Version.Sorting
import ReleaseNotes.Release.Grouping

/-!
Grouping issues. After any number of entries there is one release for each version, in the order in
which the versions first appear, and it holds the actions of the entries of its version. Sorting the
releases amounts to sorting their versions. The grouping of issues hence is a function of each
version and the issues, put on the sorted list of all fix versions.
-/

namespace ReleaseNotes.Release

open List

def ofEntries (entries : List (String × Action)) (version : String) : Release :=
  ofActions version ((entries.filter (·.1 == version)).map Prod.snd)

theorem ofEntries_append_of_eq (entries : List (String × Action)) (version : String)
    (action : Action) :
    ofEntries (entries ++ [(version, action)]) version =
      { ofEntries entries version with
        actions := (ofEntries entries version).actions ++ [action] } := by
  simp [ofEntries, ofActions]

theorem ofEntries_append_of_ne (entries : List (String × Action)) {version other : String}
    (action : Action) (h : other ≠ version) :
    ofEntries (entries ++ [(version, action)]) other = ofEntries entries other := by
  simp [ofEntries, Ne.symm h]

theorem map_ofEntries_append (entries : List (String × Action)) {version : String}
    (action : Action) {seen : List String} (h : version ∉ seen) :
    seen.map (ofEntries (entries ++ [(version, action)])) = seen.map (ofEntries entries) := by
  apply map_congr_left
  rintro other hother
  apply ofEntries_append_of_ne
  rintro rfl
  exact h hother

/-- An entry of a version that has a release goes into that release and changes no other one. -/
theorem addAction_map_of_mem (entries : List (String × Action)) {version : String}
    (action : Action) {seen : List String} (hnodup : seen.Nodup) (h : version ∈ seen) :
    addAction version action (seen.map (ofEntries entries)) =
      seen.map (ofEntries (entries ++ [(version, action)])) := by
  induction seen with
  | nil => simp at h
  | cons first seen ih =>
    obtain ⟨hfirst, hseen⟩ := nodup_cons.mp hnodup
    have hversion : (ofEntries entries first).version = first := rfl
    rw [map_cons, map_cons, addAction]
    by_cases heq : first = version
    · subst heq
      rw [if_pos hversion, map_ofEntries_append entries action hfirst, ofEntries_append_of_eq]
    · have hmem : version ∈ seen := (mem_cons.mp h).resolve_left (Ne.symm heq)
      rw [if_neg (hversion ▸ heq), ih hseen hmem, ofEntries_append_of_ne entries action heq]

/-- A version that is new gets a release of its own behind the others. -/
theorem addAction_of_notMem {version : String} (action : Action) {releases : List Release}
    (h : version ∉ versions releases) :
    addAction version action releases = releases ++ [ofActions version [action]] := by
  induction releases with
  | nil => rfl
  | cons release releases ih =>
    rw [versions_cons, mem_cons, not_or] at h
    rw [addAction, if_neg (Ne.symm h.1), ih h.2, cons_append]

@[simp] theorem versions_map_ofEntries (entries : List (String × Action)) (seen : List String) :
    versions (seen.map (ofEntries entries)) = seen := by
  simp [versions, ofEntries, ofActions, Function.comp_def]

/-- Entries make up one release for each of their versions. -/
theorem groupActions_eq_map (entries : List (String × Action)) :
    groupActions entries = (distinct (entries.map Prod.fst)).map (ofEntries entries) := by
  induction entries using reverseRecOn with
  | nil => rfl
  | append_singleton entries entry ih =>
    obtain ⟨version, action⟩ := entry
    have hstep : groupActions (entries ++ [(version, action)]) =
        addAction version action (groupActions entries) := by
      rw [groupActions, foldl_append]
      rfl
    rw [hstep, ih, map_append, map_singleton, distinct_append_singleton]
    split
    · rename_i hmem
      exact addAction_map_of_mem entries action (nodup_distinct _) hmem
    · rename_i hmem
      have hnone : entries.filter (·.1 == version) = [] := by
        rw [filter_eq_nil_iff]
        intro entry hentry heq
        rw [mem_distinct] at hmem
        exact hmem (mem_map.mpr ⟨entry, hentry, eq_of_beq heq⟩)
      rw [addAction_of_notMem action (by simpa using hmem), map_append,
        map_ofEntries_append entries action hmem, map_singleton]
      simp [ofEntries, hnone]

/-- The actions of issues in a version: that of each issue as often as the version is among its fix
versions. -/
def issueActions (mapping : TypeMapping) (issues : List Issue) (version : String) : List Action :=
  issues.flatMap fun issue =>
    replicate (issue.fixVersions.count version) (Action.ofIssue mapping issue)

theorem versions_versionedActions (mapping : TypeMapping) (issues : List Issue) :
    (versionedActions mapping issues).map Prod.fst = issues.flatMap Issue.fixVersions := by
  simp [versionedActions, map_flatMap, Function.comp_def]

/-- The entries for a version are the actions of the issues, as often as they name the version. -/
theorem ofEntries_versionedActions (mapping : TypeMapping) (issues : List Issue)
    (version : String) :
    ofEntries (versionedActions mapping issues) version =
      ofActions version (issueActions mapping issues version) := by
  simp [ofEntries, issueActions, versionedActions, filter_flatMap, map_flatMap, filter_map,
    Function.comp_def, filter_beq]

def fixVersions (issues : List Issue) : List String :=
  distinct (issues.flatMap Issue.fixVersions)

theorem mem_fixVersions {issues : List Issue} {version : String} :
    version ∈ fixVersions issues ↔ ∃ issue ∈ issues, version ∈ issue.fixVersions := by
  rw [fixVersions, mem_distinct, mem_flatMap]

/-- Issues make up one release for each fix version, and the releases are sorted by version. -/
theorem ofIssues_eq_map (mapping : TypeMapping) (issues : List Issue) :
    ofIssues mapping issues = (Version.newestFirst (fixVersions issues)).map fun version =>
      ofActions version (issueActions mapping issues version) := by
  have hsort := map_mergeSort (r := Version.isNotOlder) (s := isNotOlder)
    (f := ofEntries (versionedActions mapping issues)) (l := fixVersions issues)
    fun _ _ _ _ => rfl
  rw [ofIssues, groupActions_eq_map, versions_versionedActions]
  simp only [← ofEntries_versionedActions]
  exact hsort.symm

/-- The releases of issues are sorted by version, the newest first. -/
@[simp] theorem versions_ofIssues (mapping : TypeMapping) (issues : List Issue) :
    versions (ofIssues mapping issues) = Version.newestFirst (fixVersions issues) := by
  rw [ofIssues_eq_map, versions, map_map]
  exact map_id _

theorem nodup_versions_ofIssues (mapping : TypeMapping) (issues : List Issue) :
    (versions (ofIssues mapping issues)).Nodup := by
  rw [versions_ofIssues, (Version.newestFirst_perm _).nodup_iff]
  exact nodup_distinct _

/-- A release of issues has their actions and nothing else. -/
theorem eq_ofActions_of_mem_ofIssues {mapping : TypeMapping} {issues : List Issue}
    {release : Release} (h : release ∈ ofIssues mapping issues) :
    release = ofActions release.version (issueActions mapping issues release.version) := by
  rw [ofIssues_eq_map, mem_map] at h
  obtain ⟨version, _, rfl⟩ := h
  rfl

/-- What the releases of issues are: one for each fix version, with the actions of the issues of the
version and nothing else, the newest version first. Versions that are equally old stand in the order
of their first appearance. -/
structure IsGrouping (mapping : TypeMapping) (issues : List Issue) (releases : List Release) :
    Prop where
  nodup : (versions releases).Nodup
  mem_versions : ∀ version,
    version ∈ versions releases ↔ ∃ issue ∈ issues, version ∈ issue.fixVersions
  eq_ofActions : ∀ release ∈ releases,
    release = ofActions release.version (issueActions mapping issues release.version)
  newestFirst : (versions releases).Pairwise fun former latter =>
    Version.compare former latter ≠ .lt
  stable : ∀ v w, Version.compare v w = .eq → [v, w] <+ fixVersions issues →
    [v, w] <+ versions releases

/-- Issues whose fix versions are ordered totally are grouped by them. -/
theorem ofIssues_isGrouping (mapping : TypeMapping) (issues : List Issue)
    (horder : Version.IsPreorderOn {v | ∃ issue ∈ issues, v ∈ issue.fixVersions}) :
    IsGrouping mapping issues (ofIssues mapping issues) := by
  have hmem : {v | v ∈ fixVersions issues} = {v | ∃ issue ∈ issues, v ∈ issue.fixVersions} := by
    ext version
    exact mem_fixVersions
  rw [← hmem] at horder
  refine ⟨nodup_versions_ofIssues mapping issues, fun version => ?_,
    fun release h => eq_ofActions_of_mem_ofIssues h, ?_, fun v w heq hvw => ?_⟩
  · rw [versions_ofIssues, (Version.newestFirst_perm _).mem_iff, mem_fixVersions]
  · rw [versions_ofIssues]
    exact Version.pairwise_newestFirst horder
  · rw [versions_ofIssues]
    exact Version.pair_sublist_newestFirst horder hvw heq

/-- Two issues and three versions, of which 1.0 and 1 are equally old. -/
theorem ofIssues_isGrouping_of_two :
    Version.IsPreorderOn {v | ∃ issue ∈
      [{ Issue.ofKey "EX-1" "Sort." with fixVersions := ["1.0", "2"] },
        { Issue.ofKey "EX-2" "Group." with fixVersions := ["1", "1.0", "1.0"] }],
      v ∈ issue.fixVersions} ∧
    IsGrouping .jira
      [{ Issue.ofKey "EX-1" "Sort." with fixVersions := ["1.0", "2"] },
        { Issue.ofKey "EX-2" "Group." with fixVersions := ["1", "1.0", "1.0"] }]
      (ofIssues .jira
        [{ Issue.ofKey "EX-1" "Sort." with fixVersions := ["1.0", "2"] },
          { Issue.ofKey "EX-2" "Group." with fixVersions := ["1", "1.0", "1.0"] }]) := by
  have hnumbers : ∀ issue ∈
      [{ Issue.ofKey "EX-1" "Sort." with fixVersions := ["1.0", "2"] },
        { Issue.ofKey "EX-2" "Group." with fixVersions := ["1", "1.0", "1.0"] }],
      ∀ version ∈ issue.fixVersions, (Version.items version).all Version.Item.isNumber := by
    decide +kernel
  refine ⟨Version.isPreorderOn_of_all_isNumber ?_,
    ofIssues_isGrouping .jira _ (Version.isPreorderOn_of_all_isNumber ?_)⟩
  all_goals
    rintro version ⟨issue, hissue, hversion⟩
    exact hnumbers issue hissue version hversion

end ReleaseNotes.Release
