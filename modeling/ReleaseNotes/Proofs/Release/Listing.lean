import Mathlib.Data.List.Induction
import Mathlib.Data.List.Nodup
import ReleaseNotes.Release.Basic

/-!
Lists of releases as tables with versions for keys. Looking up a version finds the first release of
it, and the only one when no version is listed twice. The items of a list without those that
occurred before are its distinct items, in the order of their first occurrence.
-/

namespace ReleaseNotes

theorem distinct_append_singleton (items : List String) (item : String) :
    distinct (items ++ [item]) =
      if item ∈ distinct items then distinct items else distinct items ++ [item] := by
  rw [distinct, List.foldl_append]
  rfl

theorem nodup_distinct (items : List String) : (distinct items).Nodup := by
  induction items using List.reverseRecOn with
  | nil => exact List.nodup_nil
  | append_singleton items item ih =>
    rw [distinct_append_singleton]
    split
    · exact ih
    · rename_i hitem
      exact ih.append (List.nodup_singleton item) (by simpa using hitem)

theorem mem_distinct {items : List String} {item : String} :
    item ∈ distinct items ↔ item ∈ items := by
  induction items using List.reverseRecOn with
  | nil => exact Iff.rfl
  | append_singleton items last ih =>
    rw [distinct_append_singleton]
    split
    · rename_i hlast
      rw [ih, List.mem_append, List.mem_singleton]
      refine ⟨Or.inl, ?_⟩
      rintro (hitem | rfl)
      · exact hitem
      · exact ih.mp hlast
    · simp only [List.mem_append, ih]

theorem distinct_eq_eraseDups (items : List String) : distinct items = items.eraseDups := by
  induction items using List.reverseRecOn with
  | nil => rfl
  | append_singleton items item ih =>
    rw [distinct_append_singleton, List.eraseDups_append, ← ih]
    by_cases hitem : item ∈ items
    · rw [if_pos (mem_distinct.mpr hitem)]
      simp [List.removeAll, hitem]
    · rw [if_neg (mt mem_distinct.mp hitem)]
      simp [List.removeAll, hitem, List.eraseDups_cons]

/-- The distinct items come in the order in which they first occur. -/
theorem pairwise_idxOf_distinct (items : List String) :
    (distinct items).Pairwise fun first second => items.idxOf first < items.idxOf second := by
  induction items using List.reverseRecOn with
  | nil => exact List.Pairwise.nil
  | append_singleton items item ih =>
    have hkept : (distinct items).Pairwise fun first second =>
        (items ++ [item]).idxOf first < (items ++ [item]).idxOf second := by
      refine ih.imp_of_mem fun {first second} hfirst hsecond hlt => ?_
      rwa [List.idxOf_append_of_mem (mem_distinct.mp hfirst),
        List.idxOf_append_of_mem (mem_distinct.mp hsecond)]
    rw [distinct_append_singleton]
    split
    · exact hkept
    · rename_i hitem
      refine List.pairwise_append.mpr ⟨hkept, List.pairwise_singleton _ _, ?_⟩
      intro first hfirst second hsecond
      obtain rfl := List.mem_singleton.mp hsecond
      rw [List.idxOf_append_of_mem (mem_distinct.mp hfirst),
        List.idxOf_append_of_notMem (mt mem_distinct.mpr hitem)]
      exact Nat.lt_add_right _ (List.idxOf_lt_length_iff.mpr (mem_distinct.mp hfirst))

theorem head?_distinct_cons (item : String) (items : List String) :
    (distinct (item :: items)).head? = some item := by
  induction items using List.reverseRecOn with
  | nil => rfl
  | append_singleton items last ih =>
    rw [← List.cons_append, distinct_append_singleton]
    split
    · exact ih
    · rw [List.head?_append, ih, Option.some_or]

namespace Release

def versions (releases : List Release) : List String :=
  releases.map version

/-- All actions of the releases of a version, with those in components. -/
def actionsUnder (releases : List Release) (version : String) : List Action :=
  (releases.filter (·.version == version)).flatMap allActions

def ownActions (releases : List Release) (version : String) : List Action :=
  (find? releases version).elim [] actions

@[simp] theorem versions_nil : versions [] = [] := rfl

@[simp] theorem versions_cons (release : Release) (releases : List Release) :
    versions (release :: releases) = release.version :: versions releases := rfl

@[simp] theorem versions_append (first second : List Release) :
    versions (first ++ second) = versions first ++ versions second := List.map_append

theorem mem_versions {releases : List Release} {version : String} :
    version ∈ versions releases ↔ ∃ release ∈ releases, release.version = version :=
  List.mem_map

theorem mem_of_find? {releases : List Release} {version : String} {release : Release}
    (h : find? releases version = some release) : release ∈ releases :=
  List.mem_of_find?_eq_some h

theorem version_of_find? {releases : List Release} {version : String} {release : Release}
    (h : find? releases version = some release) : release.version = version := by
  have hp := List.find?_some (p := fun r : Release => r.version == version) h
  exact eq_of_beq hp

theorem find?_eq_none_iff {releases : List Release} {version : String} :
    find? releases version = none ↔ version ∉ versions releases := by
  simp only [find?, List.find?_eq_none, beq_iff_eq, mem_versions, not_exists, not_and]

theorem find?_isSome_iff {releases : List Release} {version : String} :
    (find? releases version).isSome ↔ version ∈ versions releases := by
  rw [← not_iff_not, ← find?_eq_none_iff, Option.not_isSome_iff_eq_none]

theorem find?_cons (release : Release) (releases : List Release) (version : String) :
    find? (release :: releases) version =
      if release.version = version then some release else find? releases version := by
  split
  · rename_i h
    exact List.find?_cons_of_pos (by simpa using h)
  · rename_i h
    exact List.find?_cons_of_neg (by simpa using h)

section Map

variable {f : Release → Release} (hf : ∀ release, (f release).version = release.version)

include hf in
theorem versions_map (releases : List Release) : versions (releases.map f) = versions releases := by
  simp only [versions, List.map_map, Function.comp_def, hf]

include hf in
theorem find?_map (releases : List Release) (version : String) :
    find? (releases.map f) version = (find? releases version).map f := by
  rw [find?, List.find?_map]
  simp only [Function.comp_def, hf, find?]

end Map

/-- A list without repeated versions is determined by what is found in it. -/
theorem find?_eq_some_iff {releases : List Release} (hnodup : (versions releases).Nodup)
    {version : String} {release : Release} :
    find? releases version = some release ↔ release ∈ releases ∧ release.version = version := by
  constructor
  · intro h
    exact ⟨mem_of_find? h, version_of_find? h⟩
  · rintro ⟨hmem, rfl⟩
    obtain ⟨found, hfound⟩ := Option.isSome_iff_exists.mp
      (find?_isSome_iff.mpr (mem_versions.mpr ⟨release, hmem, rfl⟩))
    have heq : found = release :=
      List.inj_on_of_nodup_map hnodup (mem_of_find? hfound) hmem (version_of_find? hfound)
    rw [hfound, heq]

@[simp] theorem actionsUnder_nil (version : String) : actionsUnder [] version = [] := rfl

theorem actionsUnder_cons (release : Release) (releases : List Release) (version : String) :
    actionsUnder (release :: releases) version =
      (if release.version = version then release.allActions else []) ++
        actionsUnder releases version := by
  by_cases h : release.version = version <;> simp [actionsUnder, h]

@[simp] theorem actionsUnder_append (first second : List Release) (version : String) :
    actionsUnder (first ++ second) version =
      actionsUnder first version ++ actionsUnder second version := by
  simp only [actionsUnder, List.filter_append, List.flatMap_append]

theorem actionsUnder_of_notMem {releases : List Release} {version : String}
    (h : version ∉ versions releases) : actionsUnder releases version = [] := by
  have hnone : ∀ release ∈ releases, ¬release.version == version := by
    intro release hmem heq
    exact h (mem_versions.mpr ⟨release, hmem, eq_of_beq heq⟩)
  rw [actionsUnder, List.filter_eq_nil_iff.mpr hnone, List.flatMap_nil]

/-- The own actions of the first release of a version are the first ones under it. -/
theorem ownActions_isPrefix (releases : List Release) (version : String) :
    ownActions releases version <+: actionsUnder releases version := by
  induction releases with
  | nil => exact List.nil_prefix
  | cons release releases ih =>
    rw [actionsUnder_cons, ownActions, find?_cons]
    split
    · rw [Option.elim_some, allActions, List.append_assoc]
      exact List.prefix_append _ _
    · exact ih

/-- If no version is listed twice then all that is under a version is in a single release. -/
theorem actionsUnder_of_nodup {releases : List Release} (hnodup : (versions releases).Nodup)
    (version : String) :
    actionsUnder releases version = (find? releases version).elim [] allActions := by
  induction releases with
  | nil => rfl
  | cons release releases ih =>
    obtain ⟨hrelease, hreleases⟩ := List.nodup_cons.mp hnodup
    rw [actionsUnder_cons, find?_cons]
    split
    · rename_i h
      rw [h] at hrelease
      rw [actionsUnder_of_notMem hrelease, List.append_nil, Option.elim_some]
    · exact ih hreleases

end Release

end ReleaseNotes
