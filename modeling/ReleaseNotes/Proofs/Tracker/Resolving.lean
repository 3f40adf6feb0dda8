import Mathlib.Data.List.Find
import ReleaseNotes.Proofs.Tracker.Searching

/-!
Looking up configured texts in a list that Jira has. A text can be the name of one thing and the
number of another one. Such a text stands for the one of the two that comes first, so it depends on
the order of the list what is found. All other texts are found in any order alike, or in none.
-/

namespace ReleaseNotes.Jira

open JiraData Query Text

/-- Each thing in a list has a number, and neither numbers nor names occur twice. -/
structure IsCatalog (known : List Named) : Prop where
  isNumbered : ∀ item ∈ known, item.id.isSome
  nodup_ids : (known.map Named.id).Nodup
  nodup_names : (known.map Named.name).Nodup

/-- A text that is the name of one thing and the number of another one. -/
def IsAmbiguous (known : List Named) (name : String) : Prop :=
  ∃ named ∈ known, ∃ numbered ∈ known,
    named.name = name ∧ numbered.id = some name ∧ named ≠ numbered

def answers (name : String) (item : Named) : Bool :=
  item.name == name || item.id == some name

def ResolvesTo (field : ListField) (known : List Named) (name : String) (item : Named) : Prop :=
  ∃ id, item.id = some id ∧ resolveName field known name = .ok id

variable {known order : List Named} {field : ListField} {name : String} {item other : Named}

theorem answers_iff : answers name item = true ↔ item.name = name ∨ item.id = some name := by
  rw [answers, Bool.or_eq_true, beq_iff_eq, beq_iff_eq]

theorem resolveName_eq (field : ListField) (known : List Named) (name : String) :
    resolveName field known name =
      (((known.find? (answers name)).bind Named.id).elim
        (.error (.unknownInJira (label field) name)) .ok) := by
  unfold resolveName answers
  split
  · rename_i id hid
    rw [hid]
    rfl
  · rename_i hid
    rw [hid]
    rfl

namespace IsCatalog

theorem perm (h : IsCatalog known) (hperm : order.Perm known) : IsCatalog order where
  isNumbered := fun item hitem => h.isNumbered item (hperm.mem_iff.mp hitem)
  nodup_ids := (hperm.map Named.id).nodup_iff.mpr h.nodup_ids
  nodup_names := (hperm.map Named.name).nodup_iff.mpr h.nodup_names

theorem eq_of_id_eq (h : IsCatalog known) (hitem : item ∈ known) (hother : other ∈ known)
    (hid : item.id = other.id) : item = other :=
  List.inj_on_of_nodup_map h.nodup_ids hitem hother hid

theorem eq_of_name_eq (h : IsCatalog known) (hitem : item ∈ known) (hother : other ∈ known)
    (hname : item.name = other.name) : item = other :=
  List.inj_on_of_nodup_map h.nodup_names hitem hother hname

theorem exists_id (h : IsCatalog known) (hitem : item ∈ known) : ∃ id, item.id = some id :=
  Option.isSome_iff_exists.mp (h.isNumbered item hitem)

/-- Only one thing is found by a text that is not ambiguous. -/
theorem eq_of_answers (h : IsCatalog known) (hname : ¬IsAmbiguous known name)
    (hitem : item ∈ known) (hother : other ∈ known) (hfirst : answers name item = true)
    (hsecond : answers name other = true) : item = other := by
  rw [answers_iff] at hfirst hsecond
  by_contra hne
  rcases hfirst with hfirst | hfirst
  · rcases hsecond with hsecond | hsecond
    · exact hne (h.eq_of_name_eq hitem hother (hfirst.trans hsecond.symm))
    · exact hname ⟨item, hitem, other, hother, hfirst, hsecond, hne⟩
  · rcases hsecond with hsecond | hsecond
    · exact hname ⟨other, hother, item, hitem, hsecond, hfirst, Ne.symm hne⟩
    · exact hne (h.eq_of_id_eq hitem hother (hfirst.trans hsecond.symm))

/-- A text is unknown if no thing is found by it, and it is so in every order. -/
theorem isResolved_iff_exists (h : IsCatalog known) :
    IsResolved known name ↔ ∃ item ∈ known, answers name item = true := by
  rw [isResolved_iff .component, resolveName_eq]
  constructor
  · rintro ⟨id, hid⟩
    cases hfind : known.find? (answers name) with
    | none =>
      rw [hfind] at hid
      contradiction
    | some item => exact ⟨item, List.mem_of_find?_eq_some hfind, List.find?_some hfind⟩
  · intro hexists
    obtain ⟨item, hfind⟩ := Option.isSome_iff_exists.mp (List.find?_isSome.mpr hexists)
    obtain ⟨id, hid⟩ := h.exists_id (List.mem_of_find?_eq_some hfind)
    refine ⟨id, ?_⟩
    rw [hfind, Option.bind_some, hid]
    rfl

/-- Whether a name is resolved does not depend on the order of a catalog. -/
theorem isResolved_perm (h : IsCatalog known) (hperm : order.Perm known) :
    IsResolved order name ↔ IsResolved known name := by
  rw [(h.perm hperm).isResolved_iff_exists, h.isResolved_iff_exists]
  simp only [hperm.mem_iff]

end IsCatalog

section Names

/-- The number of a name that is not ambiguous does not depend on the order of a catalog. -/
theorem resolveName_eq_of_perm (h : IsCatalog known) (hname : ¬IsAmbiguous known name)
    (hperm : order.Perm known) : resolveName field order name = resolveName field known name := by
  have hfind : order.find? (answers name) = known.find? (answers name) := by
    apply List.find?_eq_find?_of_perm hperm
    rintro item ⟨hitem, hfirst⟩ other ⟨hother, hsecond⟩
    exact h.eq_of_answers hname (hperm.mem_iff.mp hitem) (hperm.mem_iff.mp hother) hfirst hsecond
  rw [resolveName_eq, resolveName_eq, hfind]

theorem resolveName_cons (hitem : answers name item = true) {id : String}
    (hid : item.id = some id) (rest : List Named) :
    resolveName field (item :: rest) name = .ok id := by
  rw [resolveName_eq, List.find?_cons_of_pos hitem, Option.bind_some, hid]
  rfl

/-- A name is found to stand for the thing of this name unless a thing that comes before has it for
its number. -/
theorem resolvesTo_name_iff {before after : List Named}
    (h : IsCatalog (before ++ item :: after)) :
    ResolvesTo field (before ++ item :: after) item.name item ↔
      ∀ other ∈ before, other.id ≠ some item.name := by
  have hitem : item ∈ before ++ item :: after := List.mem_append_right _ List.mem_cons_self
  have hbefore : ∀ other ∈ before, other ∈ before ++ item :: after ∧ other.name ≠ item.name := by
    intro other hother
    refine ⟨List.mem_append_left _ hother, ?_⟩
    have hnodup := h.nodup_names
    rw [List.map_append, List.nodup_append] at hnodup
    exact hnodup.2.2 other.name (List.mem_map_of_mem hother) item.name (by simp)
  constructor
  · rintro ⟨id, hid, hresolve⟩ other hother hnumber
    -- Whatever is found first has the name for its number, and it is not the thing itself.
    obtain ⟨found, hfind⟩ : ∃ found, before.find? (answers item.name) = some found :=
      Option.isSome_iff_exists.mp
        (List.find?_isSome.mpr ⟨other, hother, answers_iff.mpr (Or.inr hnumber)⟩)
    obtain ⟨hfound, hne⟩ := hbefore found (List.mem_of_find?_eq_some hfind)
    have hanswer : found.name = item.name ∨ found.id = some item.name :=
      answers_iff.mp (List.find?_some hfind)
    have hfoundId := hanswer.resolve_left hne
    rw [resolveName_eq, List.find?_append, hfind, Option.some_or, Option.bind_some,
      hfoundId] at hresolve
    obtain rfl := Except.ok.inj hresolve
    exact hne (congrArg Named.name (h.eq_of_id_eq hfound hitem (hfoundId.trans hid.symm)))
  · intro hnumbers
    obtain ⟨id, hid⟩ := h.exists_id hitem
    have hnone : before.find? (answers item.name) = none := by
      rw [List.find?_eq_none]
      intro other hother hanswer
      rcases answers_iff.mp hanswer with hname | hnumber
      · exact (hbefore other hother).2 hname
      · exact hnumbers other hother hnumber
    refine ⟨id, hid, ?_⟩
    have hself : answers item.name item = true := answers_iff.mpr (Or.inl rfl)
    rw [resolveName_eq, List.find?_append, hnone, Option.none_or, List.find?_cons_of_pos hself,
      Option.bind_some, hid]
    rfl

/-- An ambiguous text is found differently with one thing in front and with the other one. -/
theorem exists_orders_of_isAmbiguous (h : IsCatalog known) (hname : IsAmbiguous known name) :
    ∃ first second : List Named, first.Perm known ∧ second.Perm known ∧
      ∀ field, resolveName field first name ≠ resolveName field second name := by
  obtain ⟨named, hnamed, numbered, hnumbered, hfirst, hsecond, hne⟩ := hname
  obtain ⟨id, hid⟩ := h.exists_id hnamed
  refine ⟨named :: known.erase named, numbered :: known.erase numbered,
    (List.perm_cons_erase hnamed).symm, (List.perm_cons_erase hnumbered).symm, ?_⟩
  intro field heq
  rw [resolveName_cons (answers_iff.mpr (Or.inl hfirst)) hid,
    resolveName_cons (answers_iff.mpr (Or.inr hsecond)) hsecond] at heq
  obtain rfl := Except.ok.inj heq
  exact hne (h.eq_of_id_eq hnamed hnumbered (hid.trans hsecond.symm))

/-- A name is found to stand for the thing of this name in every order exactly if it is not
ambiguous. -/
theorem forall_resolvesTo_iff (h : IsCatalog known) (field : ListField) (name : String) :
    (∀ order : List Named, order.Perm known → ∀ item ∈ known, item.name = name →
      ResolvesTo field order name item) ↔ ¬IsAmbiguous known name := by
  constructor
  · rintro hresolves ⟨named, hnamed, numbered, hnumbered, hfirst, hsecond, hne⟩
    obtain ⟨id, hid, hresolve⟩ := hresolves (numbered :: known.erase numbered)
      (List.perm_cons_erase hnumbered).symm named hnamed hfirst
    rw [resolveName_cons (answers_iff.mpr (Or.inr hsecond)) hsecond] at hresolve
    obtain rfl := Except.ok.inj hresolve
    exact hne (h.eq_of_id_eq hnamed hnumbered (hid.trans hsecond.symm))
  · rintro hname order hperm item hitem rfl
    obtain ⟨before, after, rfl⟩ := List.append_of_mem (hperm.mem_iff.mpr hitem)
    have horder := h.perm hperm
    refine (resolvesTo_name_iff horder).mpr fun other hother hnumber => hname ?_
    refine ⟨item, hitem, other, hperm.mem_iff.mp (List.mem_append_left _ hother), rfl, hnumber, ?_⟩
    rintro rfl
    have hnodup := List.Nodup.of_map Named.name horder.nodup_names
    exact (List.nodup_append.mp hnodup).2.2 item hother item List.mem_cons_self rfl

end Names

section Lists

variable {names : String} {cause : Cause}

theorem resolveName_eq_error_iff :
    resolveName field known name = .error cause ↔
      ¬IsResolved known name ∧ cause = .unknownInJira (label field) name := by
  rw [isResolved_iff field, resolveName_eq]
  cases (known.find? (answers name)).bind Named.id with
  | none => simp [eq_comm]
  | some id => simp

/-- The first unknown text makes a list of texts fail. -/
theorem resolveNames_eq_error_iff :
    resolveNames field names known = .error cause ↔
      ∃ before name after, commaList names = before ++ name :: after ∧
        (∀ other ∈ before, IsResolved known other) ∧ ¬IsResolved known name ∧
        cause = .unknownInJira (label field) name := by
  rw [resolveNames, mapM_eq_error_iff]
  simp only [← isResolved_iff field, resolveName_eq_error_iff]

theorem resolveNames_eq_of_unresolved (h : IsCatalog known) {first second : List Named}
    (hfirst : first.Perm known) (hsecond : second.Perm known)
    (hname : ∃ name ∈ commaList names, ¬IsResolved known name) :
    resolveNames field names first = resolveNames field names second := by
  have hfails : ¬∃ ids, resolveNames field names first = .ok ids := by
    rw [← forall_isResolved_iff]
    intro hall
    obtain ⟨name, hmem, hname⟩ := hname
    exact hname ((h.isResolved_perm hfirst).mp (hall name hmem))
  cases hcause : resolveNames field names first with
  | ok ids => exact absurd ⟨ids, hcause⟩ hfails
  | error cause =>
    rw [resolveNames_eq_error_iff] at hcause
    symm
    rw [resolveNames_eq_error_iff]
    simpa only [h.isResolved_perm hfirst, h.isResolved_perm hsecond] using hcause

/-- If none of them is ambiguous, names have the same numbers in any order of the catalog. -/
theorem resolveNames_eq_of_unambiguous (h : IsCatalog known) {first second : List Named}
    (hfirst : first.Perm known) (hsecond : second.Perm known)
    (hnames : ∀ name ∈ commaList names, ¬IsAmbiguous known name) :
    resolveNames field names first = resolveNames field names second := by
  have heq : ∀ name ∈ commaList names,
      resolveName field first name = resolveName field second name := by
    intro name hmem
    rw [resolveName_eq_of_perm h (hnames name hmem) hfirst,
      resolveName_eq_of_perm h (hnames name hmem) hsecond]
  exact mapM_congr heq

/-- Two orders that give the same numbers give the same number for each text. -/
theorem resolveName_eq_of_resolveNames_eq {first second : List Named}
    (hresolved : ∀ name ∈ commaList names, IsResolved first name)
    (heq : resolveNames field names first = resolveNames field names second)
    (hname : name ∈ commaList names) :
    resolveName field first name = resolveName field second name := by
  obtain ⟨ids, hids⟩ := (forall_isResolved_iff field names).mp hresolved
  exact eq_of_mapM_eq_ok hids (heq.symm.trans hids) hname

end Lists

/-- In a list where neither numbers nor names occur twice, the configured texts are looked up alike
in all orders exactly if one of them is unknown or none is ambiguous. Names are found to stand for
the things of these names in all orders exactly if none is ambiguous, and in one order exactly if
no thing that comes before has the name for its number. -/
theorem resolveNames_reordered_iff (h : IsCatalog known) (field : ListField) (names : String) :
    ((∀ first second : List Named, first.Perm known → second.Perm known →
        resolveNames field names first = resolveNames field names second) ↔
      (∃ name ∈ commaList names, ∀ item ∈ known, item.name ≠ name ∧ item.id ≠ some name) ∨
        ∀ name ∈ commaList names, ¬IsAmbiguous known name) ∧
    ((∀ order : List Named, order.Perm known → ∀ name ∈ commaList names, ∀ item ∈ known,
        item.name = name → ResolvesTo field order name item) ↔
      ∀ name ∈ commaList names, ¬IsAmbiguous known name) ∧
    ∀ before item after, known = before ++ item :: after →
      (ResolvesTo field known item.name item ↔ ∀ other ∈ before, other.id ≠ some item.name) := by
  have hunknown (name : String) : ¬IsResolved known name ↔
      ∀ item ∈ known, item.name ≠ name ∧ item.id ≠ some name := by
    simp only [h.isResolved_iff_exists, answers_iff, not_exists, not_and, not_or]
  simp only [← hunknown]
  refine ⟨⟨fun hsame => or_iff_not_imp_left.mpr fun hknown name hmem hname => ?_, ?_⟩, ?_, ?_⟩
  · obtain ⟨first, second, hfirst, hsecond, hne⟩ := exists_orders_of_isAmbiguous h hname
    have hresolved : ∀ other ∈ commaList names, IsResolved first other := by
      intro other hother
      by_contra hunresolved
      exact hknown ⟨other, hother, mt (h.isResolved_perm hfirst).mpr hunresolved⟩
    exact hne field
      (resolveName_eq_of_resolveNames_eq hresolved (hsame first second hfirst hsecond) hmem)
  · rintro (hname | hnames) first second hfirst hsecond
    · exact resolveNames_eq_of_unresolved h hfirst hsecond hname
    · exact resolveNames_eq_of_unambiguous h hfirst hsecond hnames
  · constructor
    · intro hresolves name hmem
      refine (forall_resolvesTo_iff h field name).mp fun order hperm => ?_
      exact hresolves order hperm name hmem
    · intro hnames order hperm name hmem
      exact (forall_resolvesTo_iff h field name).mpr (hnames name hmem) order hperm
  · rintro before item after rfl
    exact resolvesTo_name_iff h

def sampleVersions : List Named :=
  [⟨some "2023", "1.0"⟩, ⟨some "10500", "2023"⟩, ⟨some "11", "1.1"⟩]

theorem isCatalog_sampleVersions : IsCatalog sampleVersions :=
  ⟨by decide, by decide, by decide⟩

/-- The number of one version is the name of another one. -/
theorem resolveNames_reordered_sample :
    IsCatalog sampleVersions ∧
      (∀ first second : List Named, first.Perm sampleVersions → second.Perm sampleVersions →
        resolveNames .fixVersion "1.1, 10500" first =
          resolveNames .fixVersion "1.1, 10500" second) ∧
      ¬ResolvesTo .fixVersion sampleVersions "2023" ⟨some "10500", "2023"⟩ := by
  have hnames : commaList "1.1, 10500" = ["1.1", "10500"] := by decide +kernel
  have hsample := resolveNames_reordered_iff isCatalog_sampleVersions .fixVersion "1.1, 10500"
  refine ⟨isCatalog_sampleVersions, hsample.1.mpr (Or.inr ?_), ?_⟩
  · rw [hnames]
    simp [IsAmbiguous, sampleVersions]
  · have hfirst := hsample.2.2 [⟨some "2023", "1.0"⟩] ⟨some "10500", "2023"⟩
      [⟨some "11", "1.1"⟩] rfl
    exact fun hresolves => hfirst.mp hresolves _ List.mem_cons_self rfl

/-- The version whose number is 2023 comes before the one whose name it is, or after it. -/
theorem resolveNames_depends_on_order : ¬∀ (known order : List Named) (field : ListField)
    (names : String), IsCatalog known → order.Perm known →
      resolveNames field names order = resolveNames field names known ∧
        ∀ name ∈ commaList names, ∀ item ∈ known, item.name = name →
          ResolvesTo field known name item := by
  intro h
  obtain ⟨hsame, _⟩ := h sampleVersions sampleVersions.reverse .fixVersion "2023"
    isCatalog_sampleVersions (List.reverse_perm _)
  revert hsame
  decide +kernel

end ReleaseNotes.Jira
