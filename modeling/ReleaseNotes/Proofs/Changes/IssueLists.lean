import Mathlib
import ReleaseNotes.Proofs.Changes.Document

/-!
The issues of the actions in a changes file. Each action has the issues that its record in the file
gives, each once and in the order of the file, first the main issue. The other issues are trimmed
and the main one is not, so no blank characters surround any of them exactly if none surround the
main issue in the file.
-/

namespace ReleaseNotes.ChangesDocument

open Text Yaml Decoder

section Fields

variable {source : String} {fields : Fields} {document : ChangesDocument} {release : Release}
  {action : Action}

def IsActionOf (source : String) (fields : Fields) : Prop :=
  ∃ top inner : Fields, top.IsTop source ∧ top.IsEntry "releases" inner ∧
    inner.IsEntry "actions" fields

theorem exists_entry_of_release? (h : release? fields = some release)
    (haction : action ∈ release.actions) :
    ∃ inner, fields.IsEntry "actions" inner ∧ action? inner = some action := by
  simp only [release?, Option.bind_eq_bind, Option.bind_eq_some_iff, Option.pure_def,
    Option.some.injEq] at h
  obtain ⟨_, _, _, _, _, _, actions, hactions, rfl⟩ := h
  exact exists_entry_of_withDefault? hactions haction

/-- Every action of a parsed file was read from the entries of a record in the file. -/
theorem exists_fields_of_parse (h : parse source = .ok document)
    (hrelease : release ∈ document.releases) (haction : action ∈ release.actions) :
    ∃ fields, IsActionOf source fields ∧ action? fields = some action := by
  obtain ⟨top, htop, hdocument⟩ := exists_top_of_parse h
  obtain ⟨inner, hinner, hread⟩ := exists_entry_of_document? hdocument hrelease
  obtain ⟨fields, hfields, hfound⟩ := exists_entry_of_release? hread haction
  exact ⟨fields, ⟨top, inner, htop, hinner, hfields⟩, hfound⟩

theorem exists_texts_of_action? (h : action? fields = some action) :
    ∃ issue fixed, fields.optional? "issue" text = some issue ∧
      fields.optional? "fixes_issues" text = some fixed ∧
      action.issue = nonBlank? issue ∧ action.fixedIssues = commaItems fixed := by
  simp only [action?, Option.bind_eq_bind, Option.bind_eq_some_iff, Option.pure_def,
    Option.some.injEq] at h
  obtain ⟨_, _, _, _, issue, hissue, fixed, hfixed, _, _, _, _, _, _, _, _, _, _, rfl⟩ := h
  exact ⟨issue, fixed, hissue, hfixed, rfl, rfl⟩

end Fields

section Issues

variable {issue fixed : Option String} {ids : List String}

/-- The issues that a file gives: the main one, unless it is blank, and the trimmed entries of the
list of the others that are not blank. -/
def givenIssues (issue fixed : Option String) : List String :=
  (nonBlank? issue).toList ++ (nonBlankItems (commaEntries fixed)).map trim

/-- The given issues, each once, in the order in which they are first given. None is blank, and all
are trimmed exactly if the main one is. -/
structure ListsIssues (issue fixed : Option String) (ids : List String) : Prop where
  nodup : ids.Nodup
  head?_eq : ∀ main, nonBlank? issue = some main → ids.head? = some main
  mem_iff : ∀ id, id ∈ ids ↔ id ∈ givenIssues issue fixed
  pairwise_idxOf : ids.Pairwise fun first second =>
    (givenIssues issue fixed).idxOf first < (givenIssues issue fixed).idxOf second
  ne_blank : ∀ id ∈ ids, isBlankText id = false
  trimmed_iff : (∀ id ∈ ids, trim id = id) ↔ ∀ main, nonBlank? issue = some main → trim main = main

theorem isBlankText_of_mem_givenIssues {id : String} (h : id ∈ givenIssues issue fixed) :
    isBlankText id = false := by
  rcases List.mem_append.mp h with hmain | hother
  · exact (nonBlank?_eq_some_iff.mp (Option.mem_toList.mp hmain)).2
  · obtain ⟨entry, hentry, rfl⟩ := List.mem_map.mp hother
    rw [isBlankText_trim]
    simpa using (List.mem_filter.mp hentry).2

/-- Of the given issues, only the main one can have blanks around it: the others are trimmed. -/
theorem forall_trimmed_iff : (∀ id ∈ givenIssues issue fixed, trim id = id) ↔
    ∀ main, nonBlank? issue = some main → trim main = main := by
  constructor
  · intro h main hmain
    exact h main (List.mem_append_left _ (Option.mem_toList.mpr hmain))
  · intro h id hid
    rcases List.mem_append.mp hid with hmain | hother
    · exact h id (Option.mem_toList.mp hmain)
    · obtain ⟨entry, _, rfl⟩ := List.mem_map.mp hother
      exact trim_trim entry

theorem listsIssues_distinct (issue fixed : Option String) :
    ListsIssues issue fixed (distinct (givenIssues issue fixed)) where
  nodup := nodup_distinct _
  head?_eq := by
    intro main hmain
    rw [givenIssues, hmain]
    exact head?_distinct_cons main _
  mem_iff := fun _ => mem_distinct
  pairwise_idxOf := pairwise_idxOf_distinct _
  ne_blank := fun _ hid => isBlankText_of_mem_givenIssues (mem_distinct.mp hid)
  trimmed_iff := by
    simp only [mem_distinct]
    exact forall_trimmed_iff

end Issues

/-- Each action of a changes file has the issues that its record in the file gives. -/
theorem allIssues_areListed {source : String} {document : ChangesDocument}
    (h : parse source = .ok document) {release : Release} (hrelease : release ∈ document.releases)
    {action : Action} (haction : action ∈ release.actions) :
    ∃ fields issue fixed, IsActionOf source fields ∧ fields.optional? "issue" text = some issue ∧
      fields.optional? "fixes_issues" text = some fixed ∧
      ListsIssues issue fixed action.allIssues := by
  obtain ⟨fields, hfields, hread⟩ := exists_fields_of_parse h hrelease haction
  obtain ⟨issue, fixed, hissue, hfixed, hmain, hothers⟩ := exists_texts_of_action? hread
  refine ⟨fields, issue, fixed, hfields, hissue, hfixed, ?_⟩
  rw [Action.allIssues, hmain, hothers, commaItems_eq_map]
  exact listsIssues_distinct issue fixed

def sampleSource : String :=
  "releases: [\x7bversion: 1, actions: [\x7bissue: ' EX-1', fixes_issues: 'EX-2, EX-1'\x7d]\x7d]"

def sampleAction : Action := ⟨"", "", some " EX-1", ["EX-2", "EX-1"], none, [], none, none⟩

def sampleRelease : Release := ⟨"1", none, none, [sampleAction], []⟩

theorem parse_sampleSource : parse sampleSource = .ok ⟨none, none, none, [sampleRelease]⟩ := by
  cbv

theorem allIssues_areListed_sample :
    parse sampleSource = .ok ⟨none, none, none, [sampleRelease]⟩ ∧
      sampleAction.allIssues = [" EX-1", "EX-2", "EX-1"] ∧
      ∃ fields issue fixed, IsActionOf sampleSource fields ∧
        fields.optional? "issue" text = some issue ∧
        fields.optional? "fixes_issues" text = some fixed ∧
        ListsIssues issue fixed sampleAction.allIssues :=
  ⟨parse_sampleSource, by decide, allIssues_areListed parse_sampleSource List.mem_cons_self
    List.mem_cons_self⟩

/-- The main issue keeps the blank before it. -/
theorem allIssues_not_trimmed : ¬∀ (source : String) (document : ChangesDocument),
    parse source = .ok document → ∀ release ∈ document.releases, ∀ action ∈ release.actions,
      ∀ id ∈ action.allIssues, id ≠ "" ∧ trim id = id := by
  intro h
  obtain ⟨_, htrim⟩ := h sampleSource _ parse_sampleSource sampleRelease List.mem_cons_self
    sampleAction List.mem_cons_self " EX-1" (by decide)
  revert htrim
  decide +kernel

end ReleaseNotes.ChangesDocument
