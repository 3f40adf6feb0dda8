import ReleaseNotes.Proofs.Report.Linking

/-!
The templates that links are made with. An action has its own tracker, or else that of the project,
or else none that is known. A template that is configured for the tracker takes the place of the
usual one, even if it is blank, and then there are no links. Letter case makes no difference to the
names of trackers.
-/

namespace ReleaseNotes

open Text

namespace Linker

variable {configured : List (String × String)} {url projectSystem actionSystem : Option String}

section Systems

def chosenSystem (actionSystem projectSystem : Option String) : String :=
  ((nonBlank? actionSystem).or (nonBlank? projectSystem)).getD defaultSystem

/-- The system of an action comes first, then that of the project and then the default one. -/
theorem effectiveSystem_eq_lowercase :
    (new configured url projectSystem).effectiveSystem actionSystem =
      lowercase (chosenSystem actionSystem projectSystem) := by
  have hdefault : lowercase defaultSystem = defaultSystem := by decide
  rw [effectiveSystem, new, chosenSystem]
  cases nonBlank? actionSystem with
  | some system => rfl
  | none =>
    cases nonBlank? projectSystem with
    | some system => rfl
    | none => exact hdefault.symm

end Systems

section Templates

/-- The template of a tracker: the configured one or else the usual one. Letter case does not matter
in the name of the tracker. -/
inductive IsTemplate (configured : List (String × String)) (system : String) : String → Prop
  | configured {name template : String} (hentry : (name, template) ∈ configured)
      (hname : lowercase name = lowercase system) : IsTemplate configured system template
  | usual {name template : String}
      (hnone : ∀ entry ∈ configured, lowercase entry.1 ≠ lowercase system)
      (hentry : (name, template) ∈ usualTemplates)
      (hname : lowercase name = lowercase system) : IsTemplate configured system template

/-- A template is found for a tracker exactly if it is the configured one or, failing that, the
usual one. -/
theorem lookup_templates_eq_some_iff
    (hdistinct : (configured.map fun entry => lowercase entry.1).Nodup) {system template : String} :
    (new configured url projectSystem).templates.lookup (lowercase system) = some template ↔
      IsTemplate configured system template := by
  rw [new, List.lookup_append, Option.or_eq_some_iff, lookup_byLowercase_eq_some_iff hdistinct,
    lookup_byLowercase_eq_some_iff nodup_usualTemplates]
  constructor
  · rintro (⟨name, hentry, hname⟩ | ⟨hnone, name, hentry, hname⟩)
    · exact .configured hentry hname
    · refine .usual (fun entry hmem heq => ?_) hentry hname
      have hfound := (lookup_byLowercase_eq_some_iff hdistinct).mpr ⟨entry.1, hmem, heq⟩
      rw [hnone] at hfound
      contradiction
  · rintro (⟨hentry, hname⟩ | ⟨hnone, hentry, hname⟩)
    · exact Or.inl ⟨_, hentry, hname⟩
    · exact Or.inr ⟨lookup_byLowercase_eq_none hnone, _, hentry, hname⟩

/-- The order of templates makes no difference. -/
theorem link_of_perm (hdistinct : (configured.map fun entry => lowercase entry.1).Nodup)
    {others : List (String × String)} (hothers : others.Perm configured) (issue : String) :
    (new others url projectSystem).link issue actionSystem =
      (new configured url projectSystem).link issue actionSystem := by
  have hdistinctOthers : (others.map fun entry => lowercase entry.1).Nodup :=
    (hothers.map _).nodup_iff.mpr hdistinct
  have hlookup : ∀ name,
      (byLowercase others).lookup name = (byLowercase configured).lookup name := by
    intro name
    apply Option.ext
    intro template
    rw [lookup_byLowercase_eq_some_iff hdistinctOthers, lookup_byLowercase_eq_some_iff hdistinct]
    exact exists_congr fun given => and_congr_left fun _ => hothers.mem_iff
  have htemplates : ∀ name, (new others url projectSystem).templates.lookup name =
      (new configured url projectSystem).templates.lookup name := by
    intro name
    rw [new, List.lookup_append, hlookup, ← List.lookup_append]
    rfl
  rw [link, template?, htemplates]
  rfl

end Templates

section Filling

/-- A template can be filled if it is not blank and does not need an address that is not known. -/
theorem isUsable_iff {template : String} :
    (new configured url projectSystem).isUsable template = true ↔
      isBlankText template = false ∧
        (¬urlToken.toList <:+: template.toList ∨
          ∃ base last : String, url = some (base ++ "/" ++ last) ∧ '/' ∉ last.toList ∧
            isBlankText base = false) := by
  have hurl : (new configured url projectSystem).url.isSome = true ↔
      ∃ base last : String, url = some (base ++ "/" ++ last) ∧ '/' ∉ last.toList ∧
        isBlankText base = false := by
    rw [new, Option.isSome_iff_exists]
    simp only [Option.bind_eq_some_iff, shortened?_eq_some_iff]
    constructor
    · rintro ⟨base, _, rfl, ⟨last, hlast, rfl⟩, hbase⟩
      exact ⟨base, last, rfl, hlast, hbase⟩
    · rintro ⟨base, last, rfl, hlast, hbase⟩
      exact ⟨base, _, rfl, ⟨last, hlast, rfl⟩, hbase⟩
  rw [isUsable, Bool.and_eq_true, Bool.not_eq_true', Bool.or_eq_true, hurl,
    ← occursIn_iff_isInfix, Bool.not_eq_true', Bool.not_eq_true]

end Filling

section LetterCase

theorem lowercase_asciiLowercase (text : String) :
    lowercase (asciiLowercase text) = lowercase text := by
  rw [lowercase, asciiLowercase, String.toList_ofList, lowerChars_map_toLower, lowercase]

theorem isBlankText_asciiLowercase (text : String) :
    isBlankText (asciiLowercase text) = isBlankText text := by
  rw [isBlankText, asciiLowercase, String.toList_ofList, List.all_map]
  exact congrArg (text.toList.all ·) (funext isBlank_toLower)

def lowerNames (entries : List (String × String)) : List (String × String) :=
  entries.map fun entry => (asciiLowercase entry.1, entry.2)

theorem byLowercase_lowerNames (entries : List (String × String)) :
    byLowercase (lowerNames entries) = byLowercase entries := by
  rw [byLowercase, lowerNames, ← List.map_reverse, List.map_map, byLowercase]
  apply List.map_congr_left
  intro entry _
  exact congrArg (·, entry.2) (lowercase_asciiLowercase entry.1)

theorem map_lowercase_nonBlank?_map (system : Option String) :
    (nonBlank? (system.map asciiLowercase)).map lowercase = (nonBlank? system).map lowercase := by
  cases system with
  | none => rfl
  | some system =>
    rw [Option.map_some, nonBlank?, nonBlank?, Option.filter_some, Option.filter_some,
      isBlankText_asciiLowercase]
    cases isBlankText system with
    | true => rfl
    | false => exact congrArg some (lowercase_asciiLowercase system)

theorem map_lowercase_lowerNames (entries : List (String × String)) :
    ((lowerNames entries).map fun entry => lowercase entry.1) =
      entries.map fun entry => lowercase entry.1 := by
  rw [lowerNames, List.map_map]
  exact List.map_congr_left fun entry _ => lowercase_asciiLowercase entry.1

theorem link_lowerNames (configured : List (String × String))
    (url projectSystem actionSystem : Option String) (issue : String) :
    (new (lowerNames configured) url (projectSystem.map asciiLowercase)).link issue
        (actionSystem.map asciiLowercase) =
      (new configured url projectSystem).link issue actionSystem := by
  have hlinker : new (lowerNames configured) url (projectSystem.map asciiLowercase) =
      new configured url projectSystem := by
    rw [new, byLowercase_lowerNames, map_lowercase_nonBlank?_map, ← new]
  have hsystem : ∀ linker : Linker, linker.effectiveSystem (actionSystem.map asciiLowercase) =
      linker.effectiveSystem actionSystem := by
    intro linker
    rw [effectiveSystem, map_lowercase_nonBlank?_map, ← effectiveSystem]
  rw [hlinker, link, template?, hsystem, ← template?, ← link]

end LetterCase

/-- An action has a link exactly if the template of its tracker is not blank and can be filled, and
the link is the template filled. The case of ASCII letters in names of trackers makes no difference,
and a blank template that is configured leaves its tracker without links. -/
theorem link_eq_some_iff_isTemplate
    (hdistinct : (configured.map fun entry => lowercase entry.1).Nodup)
    (url projectSystem actionSystem : Option String) (issue : String) :
    let linker := new configured url projectSystem
    let system := chosenSystem actionSystem projectSystem
    (∀ link, linker.link issue actionSystem = some link ↔
      ∃ template, IsTemplate configured system template ∧ isBlankText template = false ∧
        (¬"%URL%".toList <:+: template.toList ∨
          ∃ base last : String, url = some (base ++ "/" ++ last) ∧ '/' ∉ last.toList ∧
            isBlankText base = false) ∧
        link = filled template issue (url.bind shortened?)) ∧
      (∀ (others : List (String × String)) (otherProject otherAction : Option String),
        (lowerNames others).Perm (lowerNames configured) →
          otherProject.map asciiLowercase = projectSystem.map asciiLowercase →
          otherAction.map asciiLowercase = actionSystem.map asciiLowercase →
          (new others url otherProject).link issue otherAction =
            linker.link issue actionSystem) ∧
      ∀ name template, (name, template) ∈ configured → lowercase name = lowercase system →
        isBlankText template = true → linker.link issue actionSystem = none := by
  intro linker system
  have hiff : ∀ link, linker.link issue actionSystem = some link ↔
      ∃ template, IsTemplate configured system template ∧ linker.isUsable template = true ∧
        link = filled template issue (url.bind shortened?) := by
    intro result
    rw [link, Option.map_eq_some_iff, template?, effectiveSystem_eq_lowercase]
    refine exists_congr fun template => ?_
    rw [Option.filter_eq_some_iff, lookup_templates_eq_some_iff hdistinct, and_assoc]
    exact and_congr_right fun _ => and_congr_right fun _ => eq_comm
  refine ⟨fun link => ?_, fun others otherProject otherAction hnames hproject haction => ?_,
    fun name template hentry hname hblank => ?_⟩
  · rw [hiff]
    refine exists_congr fun template => and_congr_right fun _ => ?_
    rw [isUsable_iff, and_assoc]
    exact Iff.rfl
  · have hdistinctLower : ((lowerNames configured).map fun entry => lowercase entry.1).Nodup := by
      rwa [map_lowercase_lowerNames]
    rw [← link_lowerNames, hproject, haction, link_of_perm hdistinctLower hnames, link_lowerNames]
  · cases hlink : linker.link issue actionSystem with
    | none => rfl
    | some link =>
      -- A link comes from a template that is not blank, but the tracker has only the blank one.
      obtain ⟨other, hother, husable, _⟩ := (hiff link).mp hlink
      have hsame : other = template := by
        have hfound : linker.templates.lookup (lowercase system) = some template :=
          (lookup_templates_eq_some_iff hdistinct).mpr (.configured hentry hname)
        rw [(lookup_templates_eq_some_iff hdistinct).mpr hother] at hfound
        exact Option.some.inj hfound
      rw [hsame, isUsable_iff, hblank] at husable
      exact absurd husable.1 (by simp)

def sampleTemplates : List (String × String) := [("tRAC", "%URL%/t/%ISSUE%"), ("Jira", " ")]

theorem link_of_sampleTemplates :
    (sampleTemplates.map fun entry => lowercase entry.1).Nodup ∧
      (new sampleTemplates (some "https://example.org/a/b") (some "Trac")).link "12" (some " ") =
        some "https://example.org/a/t/12" ∧
      (new [("JIRA", " "), ("Trac", "%URL%/t/%ISSUE%")] (some "https://example.org/a/b")
        (some "TRAC")).link "12" (some " ") = some "https://example.org/a/t/12" ∧
      (new sampleTemplates (some "https://example.org/a/b") (some "Trac")).link "EX-1"
        (some "JIRA") = none := by
  have hdistinct : (sampleTemplates.map fun entry => lowercase entry.1).Nodup := by decide
  have hentry : ("tRAC", "%URL%/t/%ISSUE%") ∈ sampleTemplates := by decide
  have hlink : (new sampleTemplates (some "https://example.org/a/b") (some "Trac")).link "12"
      (some " ") = some "https://example.org/a/t/12" := by
    refine ((link_eq_some_iff_isTemplate hdistinct (some "https://example.org/a/b") (some "Trac")
      (some " ") "12").1 _).mpr ⟨"%URL%/t/%ISSUE%", .configured hentry (by decide),
        by decide, Or.inr ?_, by decide⟩
    exact ⟨"https://example.org/a", "b", by decide, by decide, by decide⟩
  refine ⟨hdistinct, hlink, ?_, ?_⟩
  · rw [← hlink]
    exact (link_eq_some_iff_isTemplate hdistinct (some "https://example.org/a/b") (some "Trac")
      (some " ") "12").2.1 _ _ _ (by decide) (by decide) rfl
  · exact (link_eq_some_iff_isTemplate hdistinct (some "https://example.org/a/b") (some "Trac")
      (some "JIRA") "EX-1").2.2 "Jira" " " (by decide) (by decide) (by decide)

end Linker

end ReleaseNotes
