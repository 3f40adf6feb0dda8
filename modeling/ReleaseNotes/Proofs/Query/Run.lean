import Mathlib.Data.List.Induction
import Mathlib.Data.List.Nodup
import ReleaseNotes.Proofs.Query.Writing
import ReleaseNotes.Proofs.Text.Trimming

/-!
What a run of settings makes of a query. A setting that restricts a field makes a clause, unless it
is a list without an item that is not blank. The query then has one clause for each field of these
clauses, in the order in which the fields first appear, and each is the last one made for its field.
Of the filters, the sort texts and the choices of an encoding only the last one counts.
-/

namespace ReleaseNotes.Jql

open Text

def listClause? (field : Query.ListField) (items : List String) : Option Clause :=
  if nonBlankItems items = [] then none
  else some ⟨.listed field, .oneOf ((nonBlankItems items).map trim)⟩

/-- The clause that a setting makes, if it has an effect on the clauses at all. -/
def clause? : Query.Setting → Option Clause
  | .project name => some ⟨.project, .equals (trim name)⟩
  | .fixVersion name => some ⟨.fixVersion, .equals (trim name)⟩
  | .values field text => listClause? field (splitAt ',' text)
  | .valueList field items => listClause? field items
  | _ => none

def filter? : Query.Setting → Option String
  | .filter text => some text
  | _ => none

def sort? : Query.Setting → Option String
  | .sort columns => some columns
  | _ => none

def urlEncode? : Query.Setting → Option Bool
  | .urlEncode on => some on
  | _ => none

def last? {α : Type} (read : Query.Setting → Option α) (settings : List Query.Setting) : Option α :=
  (settings.filterMap read).getLast?

theorem last?_append_singleton {α : Type} (read : Query.Setting → Option α)
    (settings : List Query.Setting) (setting : Query.Setting) :
    last? read (settings ++ [setting]) = (read setting).or (last? read settings) := by
  rw [last?, List.filterMap_append, List.getLast?_append]
  cases h : read setting with
  | some value => simp [h]
  | none => simp [h, last?]

section Lasting

def fields (clauses : List Clause) : List Field :=
  (clauses.map Clause.field).eraseDups

def lastFor? (clauses : List Clause) (field : Field) : Option Clause :=
  (clauses.filter (·.field = field)).getLast?

/-- For each field the last clause, in the order in which the fields first appear. -/
def lasting (clauses : List Clause) : List Clause :=
  (fields clauses).filterMap (lastFor? clauses)

variable {clauses : List Clause}

theorem mem_fields {field : Field} :
    field ∈ fields clauses ↔ ∃ clause ∈ clauses, clause.field = field := by
  rw [fields, List.mem_eraseDups, List.mem_map]

theorem fields_append_of_mem {clause : Clause} (h : clause.field ∈ fields clauses) :
    fields (clauses ++ [clause]) = fields clauses := by
  rw [fields, List.mem_eraseDups] at h
  rw [fields, List.map_append, List.eraseDups_append, ← fields, List.map_singleton]
  simp only [List.removeAll, List.filter_singleton, List.elem_eq_mem, h]
  simp

theorem fields_append_of_notMem {clause : Clause} (h : clause.field ∉ fields clauses) :
    fields (clauses ++ [clause]) = fields clauses ++ [clause.field] := by
  rw [fields, List.mem_eraseDups] at h
  rw [fields, List.map_append, List.eraseDups_append, ← fields, List.map_singleton]
  simp only [List.removeAll, List.filter_singleton, List.elem_eq_mem, h]
  simp [List.eraseDups_cons]

theorem nodup_fields (clauses : List Clause) : (fields clauses).Nodup := by
  induction clauses using List.reverseRecOn with
  | nil => exact List.nodup_nil
  | append_singleton clauses clause ih =>
    by_cases h : clause.field ∈ fields clauses
    · rw [fields_append_of_mem h]
      exact ih
    · rw [fields_append_of_notMem h]
      exact ih.append (List.nodup_singleton _) (by simpa using h)

theorem lastFor?_append_self (clauses : List Clause) (clause : Clause) :
    lastFor? (clauses ++ [clause]) clause.field = some clause := by
  simp [lastFor?]

theorem lastFor?_append_of_ne (clauses : List Clause) {clause : Clause} {field : Field}
    (h : field ≠ clause.field) : lastFor? (clauses ++ [clause]) field = lastFor? clauses field := by
  simp [lastFor?, Ne.symm h]

theorem mem_of_lastFor? {field : Field} {clause : Clause}
    (h : lastFor? clauses field = some clause) : clause ∈ clauses ∧ clause.field = field := by
  have hmem := List.mem_filter.mp (List.mem_of_getLast? h)
  simpa using hmem

theorem exists_lastFor? {field : Field} (h : field ∈ fields clauses) :
    ∃ clause, lastFor? clauses field = some clause := by
  obtain ⟨clause, hclause, hfield⟩ := mem_fields.mp h
  have hne : clauses.filter (·.field = field) ≠ [] := by
    apply List.ne_nil_of_mem (a := clause)
    rw [List.mem_filter]
    exact ⟨hclause, by simpa using hfield⟩
  exact ⟨_, List.getLast?_eq_some_getLast hne⟩

theorem setClause_of_notMem {clause : Clause} (h : ∀ other ∈ clauses, other.field ≠ clause.field) :
    setClause clause clauses = clauses ++ [clause] := by
  induction clauses with
  | nil => rfl
  | cons first rest ih =>
    obtain ⟨hfirst, hrest⟩ := List.forall_mem_cons.mp h
    rw [setClause, if_neg hfirst, ih hrest, List.cons_append]

theorem mem_of_mem_setClause {clause other : Clause}
    (h : other ∈ setClause clause clauses) : other = clause ∨ other ∈ clauses := by
  induction clauses with
  | nil => exact Or.inl (List.mem_singleton.mp h)
  | cons first rest ih =>
    rw [setClause] at h
    split at h
    · exact (List.mem_cons.mp h).imp_right (List.mem_cons_of_mem first)
    · rcases List.mem_cons.mp h with rfl | hrest
      · exact Or.inr List.mem_cons_self
      · exact (ih hrest).imp_right (List.mem_cons_of_mem first)

/-- In a list of one clause for each of some fields, setting a clause changes it for its field and
for no other one. -/
theorem setClause_filterMap {clause : Clause} {former later : Field → Option Clause}
    {fields : List Field} (hnodup : fields.Nodup) (hmem : clause.field ∈ fields)
    (hformer : ∀ field ∈ fields, ∃ other, former field = some other ∧ other.field = field)
    (hself : later clause.field = some clause)
    (hother : ∀ field, field ≠ clause.field → later field = former field) :
    setClause clause (fields.filterMap former) = fields.filterMap later := by
  induction fields with
  | nil => contradiction
  | cons field fields ih =>
    obtain ⟨hfield, hfields⟩ := List.nodup_cons.mp hnodup
    obtain ⟨⟨other, hother', heq⟩, hrest⟩ := List.forall_mem_cons.mp hformer
    rw [List.filterMap_cons_some hother', setClause]
    by_cases hsame : field = clause.field
    · have htail : fields.filterMap former = fields.filterMap later := by
        apply List.filterMap_congr
        intro next hnext
        rw [hother next]
        rintro rfl
        exact hfield (hsame ▸ hnext)
      rw [if_pos (heq.trans hsame), htail, hsame, List.filterMap_cons_some hself]
    · have hmem' : clause.field ∈ fields := (List.mem_cons.mp hmem).resolve_left (Ne.symm hsame)
      rw [if_neg (heq ▸ hsame), ih hfields hmem' hrest,
        List.filterMap_cons_some ((hother field hsame).trans hother')]

/-- One more clause replaces the one of its field in its place, or comes at the end. -/
theorem lasting_append_singleton (clauses : List Clause) (clause : Clause) :
    lasting (clauses ++ [clause]) = setClause clause (lasting clauses) := by
  have hother : ∀ field, field ≠ clause.field →
      lastFor? (clauses ++ [clause]) field = lastFor? clauses field :=
    fun field hne => lastFor?_append_of_ne clauses hne
  unfold lasting
  by_cases h : clause.field ∈ fields clauses
  · rw [fields_append_of_mem h]
    refine (setClause_filterMap (nodup_fields clauses) h (fun field hfield => ?_)
      (lastFor?_append_self clauses clause) hother).symm
    obtain ⟨other, hlast⟩ := exists_lastFor? hfield
    exact ⟨other, hlast, (mem_of_lastFor? hlast).2⟩
  · have hkept : (fields clauses).filterMap (lastFor? (clauses ++ [clause])) =
        (fields clauses).filterMap (lastFor? clauses) := by
      apply List.filterMap_congr
      intro field hfield
      exact hother field (ne_of_mem_of_not_mem hfield h)
    rw [fields_append_of_notMem h, List.filterMap_append, hkept,
      List.filterMap_cons_some (lastFor?_append_self clauses clause), List.filterMap_nil,
      setClause_of_notMem]
    intro other hmem
    obtain ⟨field, hfield, hlast⟩ := List.mem_filterMap.mp hmem
    rw [(mem_of_lastFor? hlast).2]
    exact ne_of_mem_of_not_mem hfield h

theorem mem_of_mem_lasting {clause : Clause} (h : clause ∈ lasting clauses) : clause ∈ clauses := by
  obtain ⟨_, _, hlast⟩ := List.mem_filterMap.mp h
  exact (mem_of_lastFor? hlast).1

/-- If there is only one clause for each field, then all clauses last. -/
theorem lasting_of_nodup (h : (clauses.map Clause.field).Nodup) : lasting clauses = clauses := by
  induction clauses using List.reverseRecOn with
  | nil => rfl
  | append_singleton clauses clause ih =>
    rw [List.map_append, List.nodup_append] at h
    obtain ⟨hclauses, _, hdistinct⟩ := h
    rw [lasting_append_singleton, ih hclauses, setClause_of_notMem]
    intro other hother
    exact hdistinct _ (List.mem_map_of_mem hother) _ (by simp)

end Lasting

theorem listClause?_eq (field : Query.ListField) (items : List String) :
    listClause? field items =
      if trimmedItems items = [] then none
      else some ⟨.listed field, .oneOf (trimmedItems items)⟩ := by
  simp only [listClause?, trimmedItems_eq_map, List.map_eq_nil_iff]

theorem field_of_listClause? {field : Query.ListField} {items : List String} {clause : Clause}
    (h : listClause? field items = some clause) : clause.field = .listed field := by
  unfold listClause? at h
  split at h
  · contradiction
  · rw [← Option.some.inj h]

/-- What one setting does to a query. -/
theorem set_eq (query : Query) (setting : Query.Setting) :
    query.set setting =
      { filter := (filter? setting).getD query.filter
        urlEncoded := (urlEncode? setting).getD query.urlEncoded
        clauses := (clause? setting).elim query.clauses (setClause · query.clauses)
        order := (sort? setting).elim query.order usableColumns } := by
  have hrestrict : ∀ field items, query.restrict field (trimmedItems items) =
      { query with
        clauses := (listClause? field items).elim query.clauses (setClause · query.clauses) } := by
    intro field items
    rw [Query.restrict, listClause?_eq]
    split
    · rfl
    · rfl
  cases setting with
  | values field text => exact hrestrict field (splitAt ',' text)
  | valueList field items => exact hrestrict field items
  | _ => rfl

def ofSettings (settings : List Query.Setting) : Query where
  filter := (last? filter? settings).getD ""
  urlEncoded := (last? urlEncode? settings).getD true
  clauses := lasting (settings.filterMap clause?)
  order := (last? sort? settings).elim [] usableColumns

/-- The step for runs of settings: another setting replaces the clause for its field, or adds it. -/
theorem lasting_filterMap_append (settings : List Query.Setting) (setting : Query.Setting) :
    lasting ((settings ++ [setting]).filterMap clause?) =
      (clause? setting).elim (lasting (settings.filterMap clause?))
        (setClause · (lasting (settings.filterMap clause?))) := by
  rw [List.filterMap_append]
  cases h : clause? setting with
  | none => simp [h]
  | some clause =>
    rw [List.filterMap_cons_some h, List.filterMap_nil, lasting_append_singleton, Option.elim_some]

/-- A run depends on its settings only in these four respects. -/
theorem setAll_empty (settings : List Query.Setting) :
    Query.empty.setAll settings = ofSettings settings := by
  induction settings using List.reverseRecOn with
  | nil => rfl
  | append_singleton settings setting ih =>
    have hstep : Query.empty.setAll (settings ++ [setting]) =
        (Query.empty.setAll settings).set setting := by
      rw [Query.setAll, List.foldl_append]
      rfl
    rw [hstep, ih, set_eq]
    simp only [ofSettings, last?_append_singleton, lasting_filterMap_append]
    cases filter? setting <;> cases urlEncode? setting <;> cases sort? setting <;> rfl

section Text

variable {setting : Query.Setting} {clause : Clause} {settings : List Query.Setting}

/-- Settings make clauses that fit their fields. -/
theorem isFitting_of_clause? (h : clause? setting = some clause) : IsFitting clause := by
  have hlist {field : Query.ListField} {items : List String}
      (h : listClause? field items = some clause) : IsFitting clause := by
    unfold listClause? at h
    split at h
    · contradiction
    · obtain rfl := Option.some.inj h
      exact .listed field _
  cases setting with
  | project name =>
    obtain rfl := Option.some.inj h
    exact .project _
  | fixVersion name =>
    obtain rfl := Option.some.inj h
    exact .fixVersion _
  | values field text => exact hlist h
  | valueList field items => exact hlist h
  | filter text => contradiction
  | sort columns => contradiction
  | urlEncode on => contradiction

theorem isFitting_of_mem_lasting (h : clause ∈ lasting (settings.filterMap clause?)) :
    IsFitting clause := by
  obtain ⟨setting, _, hclause⟩ := List.mem_filterMap.mp (mem_of_mem_lasting h)
  exact isFitting_of_clause? hclause

/-- The text of a run is the last filter, unless that is empty, or else one clause for each field,
the last one of the field at the place of its first one, with the last sort columns behind them. It
is encoded if the last choice of an encoding says so, and if there is no such choice. -/
theorem text_of_settings (settings : List Query.Setting) (text : String) :
    (Query.empty.setAll settings).text = text ↔
      ∃ plain, WritesQuery ((last? filter? settings).getD "")
          (lasting (settings.filterMap clause?)) ((last? sort? settings).elim [] orderOf) plain ∧
        if (last? urlEncode? settings).getD true then IsEncoded plain text else text = plain := by
  have horder : (ofSettings settings).order = (last? sort? settings).elim [] orderOf := by
    rw [ofSettings, funext usableColumns_eq_orderOf]
  have hplain (plain : String) : WritesQuery (ofSettings settings).filter
      (ofSettings settings).clauses (ofSettings settings).order plain ↔
        (ofSettings settings).plain = plain :=
    writesQuery_iff fun clause hclause => isFitting_of_mem_lasting hclause
  rw [horder] at hplain
  rw [setAll_empty]
  constructor
  · rintro rfl
    refine ⟨_, (hplain _).mpr rfl, ?_⟩
    unfold Query.text
    by_cases hencoded : (last? urlEncode? settings).getD true = true
    · rw [if_pos hencoded]
      exact isEncoded_iff.mpr (if_pos hencoded).symm
    · rw [if_neg hencoded]
      exact if_neg hencoded
  · rintro ⟨plain, hwritten, htext⟩
    obtain rfl := (hplain plain).mp hwritten
    unfold Query.text
    by_cases hencoded : (last? urlEncode? settings).getD true = true
    · rw [if_pos hencoded] at htext
      rw [← isEncoded_iff.mp htext]
      exact if_pos hencoded
    · rw [if_neg hencoded] at htext
      rw [htext]
      exact if_neg hencoded

end Text

def mixedSettings : List Query.Setting :=
  [ .urlEncode false, .values .status "Closed", .project " EX ", .sort "created",
    .values .status " In Progress,, and ", .valueList .status [" "], .fixVersion "1.0",
    .valueList .issueType ["Bug"], .sort "key desc, Fix  Version, asc", .filter "" ]

/-- Settings that replace each other, and one that stands alone and is encoded. -/
theorem text_of_settings_sample :
    (Query.empty.setAll mixedSettings).text =
        "status in (\"In Progress\", \"and\") AND project = EX AND fixVersion = \"1.0\" AND " ++
          "type in (Bug) ORDER BY key DESC, fixversion ASC" ∧
      (Query.empty.setAll [.project "R&D"]).text = "project%20%3D%20R%26D" := by
  have hclauses : lasting (mixedSettings.filterMap clause?) =
      [ ⟨.listed .status, .oneOf ["In Progress", "and"]⟩, ⟨.project, .equals "EX"⟩,
        ⟨.fixVersion, .equals "1.0"⟩, ⟨.listed .issueType, .oneOf ["Bug"]⟩ ] := by decide +kernel
  have hcolumns : (last? sort? mixedSettings).elim [] orderOf =
      [⟨"key", true⟩, ⟨"fixversion", false⟩] := by decide +kernel
  have hspace : IsMisread "In Progress" := by decide +kernel
  have hword : IsMisread "and" := by decide +kernel
  have hdot : IsMisread "1.0" := by decide +kernel
  have hbare : ∀ value ∈ ["EX", "Bug", "R&D"], ¬IsMisread value := by decide +kernel
  have hstatus : (Query.ListField.status, "status") ∈ listNames := by decide
  have htype : (Query.ListField.issueType, "type") ∈ listNames := by decide
  have hclauseTexts := List.Forall₂.cons
    (WritesClause.listed hstatus (.cons (.inQuotes hspace) (.cons (.inQuotes hword) .nil)))
    (.cons (.project (.bare (hbare "EX" (by decide)))) (.cons (.fixVersion (.inQuotes hdot))
      (.cons (.listed htype (.cons (.bare (hbare "Bug" (by decide))) .nil)) .nil)))
  have horder := WritesOrder.some (List.cons_ne_nil _ _)
    (.cons (.descending "key") (.cons (.ascending "fixversion") .nil))
  rw [← hclauses] at hclauseTexts
  rw [← hcolumns] at horder
  have hproject := List.Forall₂.cons
    (WritesClause.project (.bare (hbare "R&D" (by decide)))) List.Forall₂.nil
  constructor
  · refine (text_of_settings mixedSettings _).mpr ⟨_, .structured rfl hclauseTexts horder, ?_⟩
    rw [if_neg (by decide)]
    decide +kernel
  · refine (text_of_settings _ _).mpr ⟨_, .structured rfl hproject .none, ?_⟩
    exact isEncoded_iff.mpr (by decide +kernel)

end ReleaseNotes.Jql
