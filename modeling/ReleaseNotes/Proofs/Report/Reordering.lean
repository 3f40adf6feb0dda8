import ReleaseNotes.Proofs.Report.Templates

/-!
Configured templates in different orders. Names that differ only in letter case are names of the
same tracker, and the last template for a tracker is the one that counts. So the order makes no
difference exactly if the templates for a tracker all make the same links.
-/

namespace ReleaseNotes

open Text

namespace Linker

variable {configured entries : List (String × String)} {url projectSystem : Option String}

def made (linker : Linker) (template issue : String) : Option String :=
  if linker.isUsable template then some (filled template issue linker.url) else none

theorem link_eq_bind_made (linker : Linker) (issue : String) (actionSystem : Option String) :
    linker.link issue actionSystem =
      (linker.templates.lookup (linker.effectiveSystem actionSystem)).bind fun template =>
        linker.made template issue := by
  rw [link, template?]
  cases linker.templates.lookup (linker.effectiveSystem actionSystem) with
  | none => rfl
  | some template =>
    by_cases husable : linker.isUsable template = true
    · simp [made, husable]
    · simp [made, husable]

section Lookup

theorem exists_of_lookup_byLowercase {name template : String}
    (h : (byLowercase entries).lookup name = some template) :
    ∃ given, (given, template) ∈ entries ∧ lowercase given = name := by
  obtain ⟨⟨given, _⟩, hmem, heq⟩ := List.mem_map.mp (mem_of_lookup_eq_some h)
  obtain ⟨rfl, rfl⟩ := Prod.mk.inj heq
  exact ⟨given, List.mem_reverse.mp hmem, rfl⟩

/-- Every tracker that has a template among some entries has one in any other order of them. -/
theorem exists_lookup_of_perm {others : List (String × String)} (hperm : entries.Perm others)
    {name template : String} (h : (byLowercase entries).lookup name = some template) :
    ∃ other, (byLowercase others).lookup name = some other := by
  obtain ⟨given, hgiven, rfl⟩ := exists_of_lookup_byLowercase h
  cases hother : (byLowercase others).lookup (lowercase given) with
  | some other => exact ⟨other, rfl⟩
  | none =>
    have hmem : (lowercase given, template) ∈ byLowercase others :=
      List.mem_map.mpr ⟨_, List.mem_reverse.mpr (hperm.mem_iff.mp hgiven), rfl⟩
    have hne := List.lookup_eq_none_iff.mp hother _ hmem
    exact absurd hne (by simp)

/-- The last entry for a tracker is the one that counts. -/
theorem lookup_templates_append_singleton (entry : String × String) :
    (new (entries ++ [entry]) url projectSystem).templates.lookup (lowercase entry.1) =
      some entry.2 := by
  rw [new, byLowercase, List.reverse_append, List.reverse_singleton, List.singleton_append,
    List.map_cons, List.cons_append, List.lookup_cons_self]

/-- Of templates with names that differ in letter case only, the last one counts. -/
theorem link_append_singleton (entry : String × String) {system : String}
    (hsystem : isBlankText system = false) (hlower : lowercase system = lowercase entry.1)
    (issue : String) :
    (new (entries ++ [entry]) url projectSystem).link issue (some system) =
      (new configured url none).made entry.2 issue := by
  have hgiven : nonBlank? (some system) = some system :=
    nonBlank?_eq_some_iff.mpr ⟨rfl, hsystem⟩
  have hchosen : chosenSystem (some system) projectSystem = system := by
    rw [chosenSystem, hgiven]
    rfl
  rw [link_eq_bind_made, effectiveSystem_eq_lowercase, hchosen, hlower,
    lookup_templates_append_singleton]
  rfl

end Lookup

theorem isBlankText_chosenSystem (actionSystem projectSystem : Option String) :
    isBlankText (chosenSystem actionSystem projectSystem) = false := by
  rw [chosenSystem]
  cases haction : nonBlank? actionSystem with
  | some name => exact (nonBlank?_eq_some_iff.mp haction).2
  | none =>
    cases hproject : nonBlank? projectSystem with
    | some name => exact (nonBlank?_eq_some_iff.mp hproject).2
    | none => decide

/-- The entries for each tracker make the same links. Nothing is ever looked up under a blank
name. -/
def IsConsistent (configured : List (String × String)) (url : Option String) : Prop :=
  ∀ first ∈ configured, ∀ second ∈ configured, isBlankText first.1 = false →
    lowercase first.1 = lowercase second.1 → ∀ issue : String,
      (new configured url none).made first.2 issue = (new configured url none).made second.2 issue

/-- If the templates for each tracker make the same links, then their order does not matter. -/
theorem link_eq_of_isConsistent (h : IsConsistent configured url)
    {first second : List (String × String)} (hfirst : first.Perm configured)
    (hsecond : second.Perm configured) (issue : String) (actionSystem : Option String) :
    (new first url projectSystem).link issue actionSystem =
      (new second url projectSystem).link issue actionSystem := by
  have hname := isBlankText_lowercase (isBlankText_chosenSystem actionSystem projectSystem)
  rw [link_eq_bind_made, link_eq_bind_made, effectiveSystem_eq_lowercase,
    effectiveSystem_eq_lowercase, new, new, List.lookup_append, List.lookup_append]
  generalize lowercase (chosenSystem actionSystem projectSystem) = name at hname ⊢
  cases hone : (byLowercase first).lookup name with
  | none =>
    cases hother : (byLowercase second).lookup name with
    | none => rfl
    | some template =>
      obtain ⟨found, hfound⟩ := exists_lookup_of_perm (hsecond.trans hfirst.symm) hother
      rw [hone] at hfound
      contradiction
  | some template =>
    obtain ⟨other, hother⟩ := exists_lookup_of_perm (hfirst.trans hsecond.symm) hone
    obtain ⟨given, hgiven, hlower⟩ := exists_of_lookup_byLowercase hone
    obtain ⟨againGiven, hagain, hagainLower⟩ := exists_of_lookup_byLowercase hother
    rw [hother, Option.some_or, Option.some_or, Option.bind_some, Option.bind_some]
    exact h _ (hfirst.mem_iff.mp hgiven) _ (hsecond.mem_iff.mp hagain)
      (isBlankText_of_lowercase hlower hname) (hlower.trans hagainLower.symm) issue

/-- Two orders of the configured templates make the same links, whatever the trackers of the project
and of the actions are, exactly if the templates for each tracker make the same links. -/
theorem link_reordered_iff (configured : List (String × String))
    (url projectSystem : Option String) :
    (∀ first second : List (String × String), first.Perm configured → second.Perm configured →
      ∀ (issue : String) (actionSystem : Option String),
        (new first url projectSystem).link issue actionSystem =
          (new second url projectSystem).link issue actionSystem) ↔
      IsConsistent configured url := by
  constructor
  · intro h one hone other hother hname hlower issue
    -- Each of the two entries comes last in some order.
    have hlast (entry : String × String) (hentry : entry ∈ configured) :
        (configured.erase entry ++ [entry]).Perm configured :=
      (List.perm_append_singleton _ _).trans (List.perm_cons_erase hentry).symm
    have hlinks := h _ _ (hlast one hone) (hlast other hother) issue (some one.1)
    rwa [link_append_singleton one hname rfl, link_append_singleton other hname hlower] at hlinks
  · intro h first second hfirst hsecond issue actionSystem
    exact link_eq_of_isConsistent h hfirst hsecond issue actionSystem

/-- Two spellings of one name, with different templates. -/
theorem link_depends_on_order : ¬∀ (configured first second : List (String × String))
    (url projectSystem : Option String) (issue : String) (actionSystem : Option String),
    (configured.map Prod.fst).Nodup → first.Perm configured → second.Perm configured →
      (new first url projectSystem).link issue actionSystem =
        (new second url projectSystem).link issue actionSystem := by
  intro h
  have hlinks := h
    [("Bugzilla", "https://old.example.org/%ISSUE%"), ("bugzilla", "https://example.org/%ISSUE%")]
    [("Bugzilla", "https://old.example.org/%ISSUE%"), ("bugzilla", "https://example.org/%ISSUE%")]
    [("bugzilla", "https://example.org/%ISSUE%"), ("Bugzilla", "https://old.example.org/%ISSUE%")]
    none none "7" (some "bugzilla") (by decide) (List.Perm.refl _) (List.Perm.swap _ _ [])
  revert hlinks
  decide +kernel

end Linker

end ReleaseNotes
