import Mathlib.Data.List.Basic
import ReleaseNotes.Proofs.Release.Collecting

/-!
Merging as a monoid. A release takes the actions of one list after those of another, whether the two
lists were merged before or not, and a version of the later lists alone comes in at the same place.
The empty list and a missing list change nothing. Lists in a row hence have one merged list, however
the merges are bracketed.
-/

namespace ReleaseNotes.Release

/-- Completing a release from two lists in turn is completing it from the merged list. -/
theorem complete_complete (second third : List Release) (release : Release) :
    complete third (complete second release) = complete (mergeLists second third) release := by
  rw [complete_eq (mergeLists second third), ownActions_mergeLists, complete_eq third,
    complete_version, complete_eq second, List.append_assoc]

theorem missingFrom_append (known first second : List Release) :
    missingFrom known (first ++ second) = missingFrom known first ++ missingFrom known second :=
  List.filter_append _ _

/-- Completing releases does not change which of them are missing from a list. -/
theorem missingFrom_map_complete (known others releases : List Release) :
    missingFrom known (releases.map (complete others)) =
      (missingFrom known releases).map (complete others) := by
  unfold missingFrom
  rw [List.filter_map]
  simp only [Function.comp_def, complete_version]

/-- What is missing from a merged list is missing from both lists. -/
theorem missingFrom_mergeLists (first second releases : List Release) :
    missingFrom (mergeLists first second) releases =
      missingFrom first (missingFrom second releases) := by
  rw [missingFrom_eq_filter, missingFrom_eq_filter second, missingFrom_eq_filter first,
    List.filter_filter]
  apply List.filter_congr
  intro release _
  rw [versions_mergeLists, ← Bool.decide_and, decide_eq_decide, List.mem_append, List.mem_filter,
    decide_eq_true_iff]
  tauto

/-- Lists can be merged in any grouping, as it is the first release of a version that counts. -/
theorem mergeLists_assoc (first second third : List Release) :
    mergeLists (mergeLists first second) third = mergeLists first (mergeLists second third) := by
  have hcompleted : (first.map (complete second)).map (complete third) =
      first.map (complete (mergeLists second third)) := by
    rw [List.map_map]
    exact List.map_congr_left fun release _ => complete_complete second third release
  calc mergeLists (mergeLists first second) third
      = (first.map (complete second) ++ missingFrom first second).map (complete third) ++
          missingFrom (mergeLists first second) third := rfl
    _ = first.map (complete (mergeLists second third)) ++
          (missingFrom first (second.map (complete third)) ++
            missingFrom first (missingFrom second third)) := by
      rw [List.map_append, hcompleted, missingFrom_map_complete, missingFrom_mergeLists,
        List.append_assoc]
    _ = mergeLists first (mergeLists second third) := by
      rw [← missingFrom_append, ← mergeLists, ← mergeLists]

theorem nil_mergeLists (releases : List Release) : mergeLists [] releases = releases := by
  rw [mergeLists, List.map_nil, List.nil_append, missingFrom_eq_filter]
  simp

theorem mergeLists_nil (releases : List Release) : mergeLists releases [] = releases := by
  have hcomplete : ∀ release : Release, complete [] release = release := fun _ => rfl
  rw [mergeLists, List.map_congr_left fun release _ => hcomplete release, List.map_id']
  exact List.append_nil releases

instance : Std.Associative mergeLists := ⟨mergeLists_assoc⟩

instance : Std.LawfulIdentity mergeLists [] where
  left_id := nil_mergeLists
  right_id := mergeLists_nil

/-- A list that is missing counts as an empty one. -/
theorem merge_eq_mergeLists (first second : Option (List Release)) :
    merge first second = mergeLists (first.getD []) (second.getD []) := by
  cases first with
  | none =>
    cases second with
    | none => rfl
    | some second => exact (nil_mergeLists second).symm
  | some first =>
    cases second with
    | none => exact (mergeLists_nil first).symm
    | some second => rfl

theorem mergeAll_append (former latter : List (List Release)) :
    mergeAll (former ++ latter) = mergeLists (mergeAll former) (mergeAll latter) := by
  have hstart : latter.foldl mergeLists (mergeLists (mergeAll former) []) =
      mergeLists (mergeAll former) (mergeAll latter) := List.foldl_assoc
  rw [mergeAll, List.foldl_append, ← mergeAll, ← hstart, mergeLists_nil]

inductive Bracketing where
  | list (releases : Option (List Release))
  | pair (first second : Bracketing)

namespace Bracketing

def lists : Bracketing → List (List Release)
  | .list releases => releases.toList
  | .pair first second => first.lists ++ second.lists

def merged : Bracketing → Option (List Release)
  | .list releases => releases
  | .pair first second => some (merge first.merged second.merged)

/-- However they are bracketed, lists are merged as one after the other. -/
theorem merged_eq_mergeAll (brackets : Bracketing) :
    brackets.merged.getD [] = mergeAll brackets.lists := by
  induction brackets with
  | list releases =>
    cases releases with
    | none => rfl
    | some releases => exact (nil_mergeLists releases).symm
  | pair first second ihFirst ihSecond =>
    have hmerged : (pair first second).merged.getD [] = merge first.merged second.merged := rfl
    rw [hmerged, merge_eq_mergeLists, ihFirst, ihSecond, ← mergeAll_append, ← lists]

/-- Every run of merges has a bracketing, so statements on bracketings are about all runs. -/
theorem exists_lists_eq (systems : List (List Release)) :
    ∃ brackets : Bracketing, brackets.lists = systems := by
  induction systems with
  | nil => exact ⟨.list none, rfl⟩
  | cons system systems ih =>
    obtain ⟨brackets, hbrackets⟩ := ih
    exact ⟨.pair (.list (some system)) brackets, congrArg (system :: ·) hbrackets⟩

end Bracketing

end ReleaseNotes.Release
