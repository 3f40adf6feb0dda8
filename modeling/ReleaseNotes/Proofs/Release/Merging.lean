import ReleaseNotes.Proofs.Release.Listing
import ReleaseNotes.Release.Merging

/-!
What merging keeps. The versions of the first list come first and those of the second list alone
follow. A release of the first list takes the own actions of the first release of its version in
the second list, and so does every further release of that version. Merging two lists hence keeps
every version and every action once exactly if no version is repeated on the way and what the second
list has under a version of the first one are own actions of one release.
-/

namespace ReleaseNotes.Release

@[simp] theorem complete_version (others : List Release) (release : Release) :
    (complete others release).version = release.version := by
  unfold complete
  split <;> rfl

theorem missingFrom_eq_filter (known releases : List Release) :
    missingFrom known releases =
      releases.filter fun release => release.version ∉ versions known := by
  apply List.filter_congr
  intro release _
  rw [Bool.eq_iff_iff, Option.isNone_iff_eq_none, find?_eq_none_iff, decide_eq_true_iff]

@[simp] theorem versions_missingFrom (known releases : List Release) :
    versions (missingFrom known releases) =
      (versions releases).filter fun version => version ∉ versions known := by
  rw [missingFrom_eq_filter]
  simp only [versions, List.filter_map, Function.comp_def]

/-- Merging keeps the versions of the first list and adds those that only the second one has. -/
@[simp] theorem versions_mergeLists (first second : List Release) :
    versions (mergeLists first second) =
      versions first ++ (versions second).filter fun version => version ∉ versions first := by
  rw [mergeLists, versions_append, versions_map (complete_version second), versions_missingFrom]

/-- A merged list repeats a version exactly if the first list does, or if the second one repeats one
that is new. -/
theorem nodup_versions_mergeLists_iff (first second : List Release) :
    (versions (mergeLists first second)).Nodup ↔ (versions first).Nodup ∧
      ((versions second).filter fun version => version ∉ versions first).Nodup := by
  rw [versions_mergeLists, List.nodup_append]
  refine ⟨fun h => ⟨h.1, h.2.1⟩, fun h => ⟨h.1, h.2, ?_⟩⟩
  rintro version hfirst other hother rfl
  simp only [List.mem_filter, decide_eq_true_eq] at hother
  exact hother.2 hfirst

theorem find?_missingFrom {known : List Release} {version : String}
    (h : version ∉ versions known) (releases : List Release) :
    find? (missingFrom known releases) version = find? releases version := by
  rw [missingFrom_eq_filter, find?, List.find?_filter, find?]
  congr 1
  funext release
  by_cases heq : release.version = version <;> simp [heq, h]

/-- A version is looked up in a merged list by looking it up on both sides. -/
theorem find?_mergeLists (first second : List Release) (version : String) :
    find? (mergeLists first second) version =
      ((find? first version).map (complete second)).or (find? second version) := by
  rw [mergeLists, find?, List.find?_append, ← find?, ← find?, find?_map (complete_version second)]
  cases h : find? first version with
  | some release => rfl
  | none => exact find?_missingFrom (find?_eq_none_iff.mp h) second

theorem complete_eq (others : List Release) (release : Release) :
    complete others release =
      { release with actions := release.actions ++ ownActions others release.version } := by
  unfold complete ownActions
  cases find? others release.version with
  | some other => rfl
  | none => rw [Option.elim_none, List.append_nil]

/-- Every release of a version takes the same actions from the other list. -/
theorem actionsUnder_map_complete_perm (others releases : List Release) (version : String) :
    (actionsUnder (releases.map (complete others)) version).Perm
      (actionsUnder releases version ++
        (List.replicate ((versions releases).count version)
          (ownActions others version)).flatten) := by
  induction releases with
  | nil => exact List.Perm.refl _
  | cons release releases ih =>
    rw [List.map_cons, actionsUnder_cons, actionsUnder_cons, complete_version, versions_cons]
    by_cases h : release.version = version
    · rw [if_pos h, if_pos h, h, List.count_cons_self, List.replicate_succ, List.flatten_cons,
        List.perm_iff_count]
      intro action
      have hcount := ih.count_eq action
      simp only [allActions, complete_eq, h, List.count_append] at hcount ⊢
      omega
    · rw [if_neg h, if_neg h, List.count_cons_of_ne h, List.nil_append, List.nil_append]
      exact ih

theorem actionsUnder_missingFrom (known releases : List Release) (version : String) :
    actionsUnder (missingFrom known releases) version =
      if version ∈ versions known then [] else actionsUnder releases version := by
  split
  · rename_i h
    apply actionsUnder_of_notMem
    simp [h]
  · rename_i h
    rw [missingFrom_eq_filter, actionsUnder, actionsUnder, List.filter_filter]
    congr 2
    funext release
    by_cases heq : release.version = version <;> simp [heq, h]

/-- What is found under a version of the first list are its actions and, for each of its releases of
the version, the own actions of the first such release of the second list. -/
theorem actionsUnder_mergeLists_perm (first second : List Release) (version : String) :
    (actionsUnder (mergeLists first second) version).Perm
      (actionsUnder first version ++
        if version ∈ versions first then
          (List.replicate ((versions first).count version) (ownActions second version)).flatten
        else actionsUnder second version) := by
  rw [mergeLists, actionsUnder_append, actionsUnder_missingFrom]
  have hmap := actionsUnder_map_complete_perm second first version
  split
  · rw [List.append_nil]
    exact hmap
  · rename_i h
    rw [List.count_eq_zero_of_not_mem h, List.replicate_zero, List.flatten_nil,
      List.append_nil] at hmap
    exact hmap.append_right _

/-- The second list can be merged into the first one with nothing lost and nothing repeated. -/
structure Mergeable (first second : List Release) : Prop where
  nodup_first : (versions first).Nodup
  nodup_second : ((versions second).filter fun version => version ∉ versions first).Nodup
  /-- What the second list has for a version of the first one are own actions of one release. -/
  own : ∀ version ∈ versions first, actionsUnder second version = ownActions second version

/-- Merging names every version once and has under each one exactly the actions of both lists, in
some order, if and only if the second list is mergeable into the first one. -/
theorem merge_keeps_all_iff_mergeable (first second : List Release) :
    ((versions (merge (some first) (some second))).Nodup ∧ ∀ version,
      (actionsUnder (merge (some first) (some second)) version).Perm
        (actionsUnder first version ++ actionsUnder second version)) ↔
      Mergeable first second := by
  simp only [merge, nodup_versions_mergeLists_iff]
  constructor
  · rintro ⟨⟨hfirst, hsecond⟩, hactions⟩
    refine ⟨hfirst, hsecond, fun version hversion => ?_⟩
    have hperm := (actionsUnder_mergeLists_perm first second version).symm.trans
      (hactions version)
    rw [if_pos hversion, List.count_eq_one_of_mem hfirst hversion, List.replicate_one,
      List.flatten_singleton, List.perm_append_left_iff] at hperm
    exact ((ownActions_isPrefix second version).eq_of_length hperm.length_eq).symm
  · rintro ⟨hfirst, hsecond, hown⟩
    refine ⟨⟨hfirst, hsecond⟩, fun version => ?_⟩
    have hperm := actionsUnder_mergeLists_perm first second version
    by_cases hversion : version ∈ versions first
    · rw [if_pos hversion, List.count_eq_one_of_mem hfirst hversion, List.replicate_one,
        List.flatten_singleton, ← hown version hversion] at hperm
      exact hperm
    · rw [if_neg hversion] at hperm
      exact hperm

/-- A version that is listed twice stays listed twice, and each time it takes the same action. -/
theorem merge_repeats_version_and_action :
    merge (some [⟨"1.0", none, none, [], []⟩, ⟨"1.0", none, none, [], []⟩])
        (some [⟨"1.0", none, none, [⟨"fix", "Sort.", none, [], none, [], none, none⟩], []⟩]) =
      [⟨"1.0", none, none, [⟨"fix", "Sort.", none, [], none, [], none, none⟩], []⟩,
        ⟨"1.0", none, none, [⟨"fix", "Sort.", none, [], none, [], none, none⟩], []⟩] ∧
      ¬∀ first second : List Release,
        (versions (merge (some first) (some second))).Nodup ∧ ∀ version,
          (actionsUnder (merge (some first) (some second)) version).Perm
            (actionsUnder first version ++ actionsUnder second version) := by
  refine ⟨by decide, fun hkeeps => ?_⟩
  have hnodup := (hkeeps [⟨"1.0", none, none, [], []⟩, ⟨"1.0", none, none, [], []⟩]
    [⟨"1.0", none, none, [⟨"fix", "Sort.", none, [], none, [], none, none⟩], []⟩]).1
  exact absurd hnodup (by decide)

end ReleaseNotes.Release
