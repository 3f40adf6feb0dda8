import ReleaseNotes.Changes.Document
import ReleaseNotes.Proofs.Text.Trimming

/-!
The problems of a document. Each release is checked against the releases before it, and each of its
actions by itself. A check that fails gives one problem, so there are none exactly if every version
is there and is listed once, and every action has a known kind and a text.
-/

namespace ReleaseNotes.ChangesDocument

open Text

section Checks

variable {earlier : List String} {place : Nat} {version : String} {action : Action}

/-- A version is fine if there is one and no release before has it. -/
theorem versionProblems_eq_nil_iff :
    versionProblems earlier place version = [] ↔ version ≠ "" ∧ version ∉ earlier := by
  rw [versionProblems]
  by_cases hempty : version = ""
  · simp [hempty]
  · by_cases hearlier : version ∈ earlier
    · simp [hempty, hearlier]
    · simp [hempty, hearlier]

theorem actionProblems_eq_nil_iff :
    actionProblems version action = [] ↔ action.kind ∈ actionKinds ∧ action.text ≠ "" := by
  rw [actionProblems, List.append_eq_nil_iff]
  refine and_congr ?_ ?_
  · by_cases hkind : action.kind ∈ actionKinds
    · simp [hkind]
    · simp [hkind]
  · by_cases htext : action.text = ""
    · simp [htext]
    · simp [htext]

end Checks

section Validity

def IsComplete (release : Release) : Prop :=
  isBlankText release.version = false ∧
    ∀ action ∈ release.actions, action.kind ∈ ["add", "fix", "update", "remove"] ∧ action.text ≠ ""

theorem isComplete_iff {release : Release} :
    IsComplete release ↔ trim release.version ≠ "" ∧
      ∀ action ∈ release.actions, actionProblems (trim release.version) action = [] := by
  have hversion : isBlankText release.version = false ↔ trim release.version ≠ "" := by
    rw [ne_eq, trim_eq_empty_iff, Bool.not_eq_true]
  simp only [IsComplete, actionProblems_eq_nil_iff, hversion]
  rfl

/-- Without problems every release is complete, and no version occurs twice, nor one of the earlier
versions. -/
theorem problemsAfter_eq_nil_iff {earlier : List String} {place : Nat} {releases : List Release} :
    problemsAfter earlier place releases = [] ↔
      (∀ release ∈ releases, IsComplete release) ∧
        (releases.map fun release => trim release.version).Nodup ∧
        ∀ release ∈ releases, trim release.version ∉ earlier := by
  induction releases generalizing earlier place with
  | nil => simp [problemsAfter]
  | cons release releases ih =>
    have hlater : (∀ other ∈ releases, trim other.version ∉ trim release.version :: earlier) ↔
        trim release.version ∉ releases.map (fun other => trim other.version) ∧
          ∀ other ∈ releases, trim other.version ∉ earlier := by
      simp only [List.mem_cons, not_or, List.mem_map, not_exists, not_and]
      exact forall₂_and
    rw [problemsAfter, List.append_eq_nil_iff, List.append_eq_nil_iff, versionProblems_eq_nil_iff,
      List.flatMap_eq_nil_iff, ih, hlater, List.forall_mem_cons, isComplete_iff, List.map_cons,
      List.nodup_cons, List.forall_mem_cons]
    constructor
    · rintro ⟨⟨⟨hversion, hearlier⟩, hactions⟩, hcomplete, hnodup, hfresh, hothers⟩
      exact ⟨⟨⟨hversion, hactions⟩, hcomplete⟩, ⟨hfresh, hnodup⟩, hearlier, hothers⟩
    · rintro ⟨⟨⟨hversion, hactions⟩, hcomplete⟩, ⟨hfresh, hnodup⟩, hearlier, hothers⟩
      exact ⟨⟨⟨hversion, hearlier⟩, hactions⟩, hcomplete, hnodup, hfresh, hothers⟩

/-- The check finds nothing exactly if all releases are complete and no version, trimmed, is there
twice. -/
theorem problems_eq_nil_iff {document : ChangesDocument} :
    document.problems = [] ↔ (∀ release ∈ document.releases, IsComplete release) ∧
      (document.releases.map fun release => trim release.version).Nodup := by
  rw [problems, problemsAfter_eq_nil_iff]
  refine and_congr_right fun _ => and_iff_left ?_
  intro release _
  exact List.not_mem_nil

end Validity

section Listing

def problemIf (fails : Prop) [Decidable fails] (problem : Problem) : List Problem :=
  if fails then [problem] else []

/-- The problems of an action of a version, one for the kind and one for the text. -/
def listedForAction (version : String) (action : Action) : List Problem :=
  let label := action.issue.getD "without an issue"
  problemIf (action.kind ∉ ["add", "fix", "update", "remove"])
      (.invalidKind version label action.kind) ++
    problemIf (action.text = "") (.noText version label)

/-- The problems of a release that comes after others. A version counts as it is when trimmed. -/
def listedFor (earlier : List Release) (release : Release) : List Problem :=
  let version := trim release.version
  problemIf (isBlankText release.version) (.emptyVersion (earlier.length + 1)) ++
    problemIf
      (isBlankText release.version = false ∧ ∃ other ∈ earlier, trim other.version = version)
      (.repeatedVersion version) ++
    release.actions.flatMap (listedForAction version)

theorem actionProblems_eq : actionProblems = listedForAction := by
  funext version action
  have hkind : actionKinds.contains action.kind = true ↔
      action.kind ∈ ["add", "fix", "update", "remove"] := List.contains_iff_mem
  rw [actionProblems, listedForAction, problemIf, problemIf]
  by_cases hknown : action.kind ∈ ["add", "fix", "update", "remove"]
  · rw [if_pos (hkind.mpr hknown), if_neg (not_not_intro hknown)]
  · rw [if_neg (mt hkind.mp hknown), if_pos hknown]

/-- The versions seen so far may have blank ones among them, which no other version repeats. -/
theorem versionProblems_eq {seen : List String} {earlier : List Release}
    (hseen : ∀ version, version ∈ seen ↔ ∃ other ∈ earlier, trim other.version = version)
    (release : Release) :
    versionProblems seen (earlier.length + 1) (trim release.version) =
      problemIf (isBlankText release.version) (.emptyVersion (earlier.length + 1)) ++
        problemIf (isBlankText release.version = false ∧
            ∃ other ∈ earlier, trim other.version = trim release.version)
          (.repeatedVersion (trim release.version)) := by
  rw [versionProblems, problemIf, problemIf]
  by_cases hblank : isBlankText release.version = true
  · simp [trim_eq_empty_iff.mpr hblank, hblank]
  · simp only [hseen]
    simp [trim_eq_empty_iff, hblank]

/-- The versions that the check has seen are those of the earlier releases, which is all that the
induction has to carry. -/
theorem problemsAfter_eq {seen : List String} {earlier : List Release}
    (hseen : ∀ version, version ∈ seen ↔ ∃ other ∈ earlier, trim other.version = version)
    (releases : List Release) :
    problemsAfter seen (earlier.length + 1) releases =
      (releases.zipIdx earlier.length).flatMap fun entry =>
        listedFor ((earlier ++ releases).take entry.2) entry.1 := by
  induction releases generalizing seen earlier with
  | nil => rfl
  | cons release releases ih =>
    have hnext : ∀ version, version ∈ trim release.version :: seen ↔
        ∃ other ∈ earlier ++ [release], trim other.version = version := by
      intro version
      rw [List.mem_cons, hseen]
      simp [or_comm, eq_comm]
    have hrest := ih hnext
    rw [List.length_append, List.length_singleton, List.append_assoc,
      List.singleton_append] at hrest
    rw [problemsAfter, versionProblems_eq hseen, hrest, List.zipIdx_cons, List.flatMap_cons,
      List.take_left, actionProblems_eq]
    rfl

end Listing

/-- The problems of a document are those of its releases, in order: one for a blank version, one for
a version that an earlier release has too, and for each action one for an unknown kind and one for a
missing text. There are none exactly if all releases are complete and their versions distinct. -/
theorem problems_areListed (document : ChangesDocument) :
    (document.problems = document.releases.zipIdx.flatMap fun entry =>
      listedFor (document.releases.take entry.2) entry.1) ∧
    (document.problems = [] ↔ (∀ release ∈ document.releases, IsComplete release) ∧
      (document.releases.map fun release => trim release.version).Nodup) := by
  refine ⟨?_, problems_eq_nil_iff⟩
  have hseen : ∀ version, version ∈ ([] : List String) ↔
      ∃ other ∈ ([] : List Release), trim other.version = version := by simp
  have hlisted := problemsAfter_eq hseen document.releases
  rwa [List.length_nil, Nat.zero_add, List.nil_append] at hlisted

end ReleaseNotes.ChangesDocument
