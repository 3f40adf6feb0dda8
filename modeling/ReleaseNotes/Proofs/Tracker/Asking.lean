import ReleaseNotes.Proofs.Journal
import ReleaseNotes.Proofs.Query.Run
import ReleaseNotes.Query.Configured
import ReleaseNotes.Tracker.Jira

/-!
The query that Jira is asked and the query that a project is shown. The one is made of the numbers
that Jira has for the configured texts, the other of the texts, and they restrict the fields in
different orders. If every text is configured by its number then the two queries have the same
clauses in another order.
-/

namespace ReleaseNotes.Jira

open Jql

section Clauses

def configuredClause? (settings : JiraSettings) (field : Query.ListField) : Option Clause :=
  (configured settings field).bind fun names => clause? (.values field names)

def wanted (settings : JiraSettings) (project : String) (fixFor : Option String)
    (fields : List Query.ListField) : List Clause :=
  [⟨.project, .equals (Text.trim project)⟩] ++
    fixFor.toList.map (fun version => ⟨.fixVersion, .equals (Text.trim version)⟩) ++
    fields.filterMap (configuredClause? settings)

variable {settings : JiraSettings} {project : String} {fixFor : Option String}
  {fields : List Query.ListField}

theorem field_of_configuredClause? {field : Query.ListField} {clause : Clause}
    (h : configuredClause? settings field = some clause) : clause.field = .listed field := by
  obtain ⟨names, _, hclause⟩ := Option.bind_eq_some_iff.mp h
  exact field_of_listClause? hclause

theorem map_field_configuredClauses_sublist (settings : JiraSettings)
    (fields : List Query.ListField) :
    ((fields.filterMap (configuredClause? settings)).map Clause.field).Sublist
      (fields.map .listed) := by
  induction fields with
  | nil => exact List.Sublist.refl _
  | cons field fields ih =>
    cases h : configuredClause? settings field with
    | none =>
      rw [List.filterMap_cons_none h, List.map_cons]
      exact ih.cons _
    | some clause =>
      rw [List.filterMap_cons_some h, List.map_cons, List.map_cons, field_of_configuredClause? h]
      exact ih.cons_cons _

/-- Each field has one clause at most, so a run of settings keeps all of them. -/
theorem nodup_fields_wanted (hnodup : fields.Nodup) :
    ((wanted settings project fixFor fields).map Clause.field).Nodup := by
  have hsublist := map_field_configuredClauses_sublist settings fields
  have hinjective : Function.Injective Field.listed := fun _ _ => Field.listed.inj
  have hlisted := (hnodup.map hinjective).sublist hsublist
  have hother : ∀ other : Field, (∀ field, other ≠ .listed field) →
      other ∉ (fields.filterMap (configuredClause? settings)).map Clause.field := by
    intro other hne hmem
    obtain ⟨field, _, heq⟩ := List.mem_map.mp (hsublist.subset hmem)
    exact hne field heq.symm
  have hproject := hother .project nofun
  have hversion := hother .fixVersion nofun
  cases fixFor with
  | none =>
    exact List.nodup_cons.mpr ⟨hproject, hlisted⟩
  | some version =>
    refine List.nodup_cons.mpr ⟨?_, List.nodup_cons.mpr ⟨hversion, hlisted⟩⟩
    simpa using hproject

end Clauses

section Queries

def queried (settings : JiraSettings) (project : String) (fixFor : Option String)
    (fields : List Query.ListField) : Jql.Query where
  filter := settings.filter.getD ""
  urlEncoded := false
  clauses := wanted settings project fixFor fields
  order := settings.sortColumns.elim [] usableColumns

def configuredLists (settings : JiraSettings)
    (form : Query.ListField → String → Query.Setting) (fields : List Query.ListField) :
    List Query.Setting :=
  fields.flatMap fun field => (configured settings field).toList.map (form field)

def allSettings (settings : JiraSettings) (project : String) (fixFor : Option String)
    (form : Query.ListField → String → Query.Setting) (fields : List Query.ListField) :
    List Query.Setting :=
  [.urlEncode false, .project project] ++ fixFor.toList.map .fixVersion ++
    configuredLists settings form fields ++
    settings.sortColumns.toList.map .sort ++ settings.filter.toList.map .filter

/-- A form of settings for lists does what the setting for a comma list does. -/
structure IsListForm (form : Query.ListField → String → Query.Setting) : Prop where
  clause_eq : ∀ field names, clause? (form field names) = clause? (.values field names)
  filter_eq : ∀ field names, filter? (form field names) = none
  sort_eq : ∀ field names, sort? (form field names) = none
  urlEncode_eq : ∀ field names, urlEncode? (form field names) = none

theorem isListForm_values : IsListForm .values :=
  ⟨fun _ _ => rfl, fun _ _ => rfl, fun _ _ => rfl, fun _ _ => rfl⟩

/-- The items of a comma list have been trimmed, and trimming them once more changes nothing. -/
theorem isListForm_commaList :
    IsListForm fun field names => .valueList field (Text.commaList names) := by
  refine ⟨fun field names => ?_, fun _ _ => rfl, fun _ _ => rfl, fun _ _ => rfl⟩
  rw [clause?, clause?, listClause?_eq, listClause?_eq, Text.commaList,
    Text.trimmedItems_trimmedItems]

variable {settings : JiraSettings} {form : Query.ListField → String → Query.Setting}

theorem filterMap_configuredLists {α : Type} {read : Query.Setting → Option α}
    (h : ∀ field names, read (form field names) = none) (fields : List Query.ListField) :
    (configuredLists settings form fields).filterMap read = [] := by
  rw [List.filterMap_eq_nil_iff]
  intro setting hsetting
  obtain ⟨field, _, hfield⟩ := List.mem_flatMap.mp hsetting
  obtain ⟨names, _, rfl⟩ := List.mem_map.mp hfield
  exact h field names

theorem clauses_configuredLists (hform : IsListForm form) (fields : List Query.ListField) :
    (configuredLists settings form fields).filterMap clause? =
      fields.filterMap (configuredClause? settings) := by
  induction fields with
  | nil => rfl
  | cons field fields ih =>
    rw [configuredLists, List.flatMap_cons, List.filterMap_append, ← configuredLists, ih]
    cases h : configured settings field with
    | none =>
      have hclause : configuredClause? settings field = none := by rw [configuredClause?, h]; rfl
      rw [List.filterMap_cons_none hclause]
      rfl
    | some names =>
      have hclause : configuredClause? settings field = clause? (form field names) := by
        rw [configuredClause?, h, hform.clause_eq]
        rfl
      rw [List.filterMap_cons, hclause]
      cases hvalue : clause? (form field names) <;> simp [hvalue]

theorem filterMap_optional {α β γ : Type} (read : β → Option γ) (form : α → β)
    (option : Option α) : (option.toList.map form).filterMap read =
      (option.bind fun value => read (form value)).toList := by
  cases option with
  | none => rfl
  | some value => cases h : read (form value) <;> simp [h]

/-- The query of all settings, whatever the form of the settings for lists is. -/
theorem ofSettings_allSettings (hform : IsListForm form) {fields : List Query.ListField}
    (hnodup : fields.Nodup) (project : String) (fixFor : Option String) :
    ofSettings (allSettings settings project fixFor form fields) =
      queried settings project fixFor fields := by
  have hclauses : (allSettings settings project fixFor form fields).filterMap clause? =
      wanted settings project fixFor fields := by
    simp only [allSettings, List.filterMap_append, filterMap_optional,
      clauses_configuredLists hform]
    cases fixFor <;> simp [wanted, clause?, List.filterMap_cons]
  have hfilter : last? filter? (allSettings settings project fixFor form fields) =
      settings.filter := by
    simp only [last?, allSettings, List.filterMap_append, filterMap_optional,
      filterMap_configuredLists hform.filter_eq]
    cases settings.filter <;> simp [filter?, List.filterMap_cons]
  have hsort : last? sort? (allSettings settings project fixFor form fields) =
      settings.sortColumns := by
    simp only [last?, allSettings, List.filterMap_append, filterMap_optional,
      filterMap_configuredLists hform.sort_eq]
    cases settings.sortColumns <;> simp [sort?, List.filterMap_cons]
  have hencode : last? urlEncode? (allSettings settings project fixFor form fields) =
      some false := by
    simp only [last?, allSettings, List.filterMap_append, filterMap_optional,
      filterMap_configuredLists hform.urlEncode_eq]
    simp [urlEncode?, List.filterMap_cons]
  rw [ofSettings, hclauses, hfilter, hsort, hencode, lasting_of_nodup (nodup_fields_wanted hnodup)]
  rfl

end Queries

def shownFields : List Query.ListField :=
  [.fixVersion, .status, .priority, .resolution, .component, .issueType]

/-- The two orders of the fields differ, but the fields are the same. -/
theorem lookedUp_perm_shownFields : lookedUp.Perm shownFields := by decide

theorem urlEncode_configured (settings : JiraSettings) (project : String) (fixFor : Option String) :
    .urlEncode false :: Query.configured settings project fixFor =
      allSettings settings project fixFor .values shownFields := by
  simp [Query.configured, allSettings, configuredLists, shownFields, configured]

/-- Everything is configured by its number: Jira has a list for every configured field, and looking
up the configured items in the list gives the same items. -/
def ConfiguredById (download : Download) : Prop :=
  ∀ field names, configured download.settings field = some names →
    ∃ known, (download.namedList (listPath download.address.project field)).outcome = .ok known ∧
      resolveNames field names known = .ok (Text.commaList names)

variable {download : Download}

theorem fieldSettings_of_configuredById (h : ConfiguredById download) (field : Query.ListField) :
    (download.fieldSettings field).outcome =
      .ok ((configured download.settings field).toList.map fun names =>
        .valueList field (Text.commaList names)) := by
  cases hconfigured : configured download.settings field with
  | none =>
    rw [Download.fieldSettings, hconfigured]
    rfl
  | some names =>
    obtain ⟨known, hknown, hnames⟩ := h field names hconfigured
    rw [Download.fieldSettings, hconfigured]
    simp only [Journaled.outcome_bind_eq_ok_iff, Journaled.outcome_ofExcept_eq_ok_iff]
    exact ⟨known, hknown, _, hnames, rfl⟩

theorem listSettings_of_configuredById (h : ConfiguredById download)
    (fields : List Query.ListField) :
    (download.listSettings fields).outcome =
      .ok (configuredLists download.settings
        (fun field names => .valueList field (Text.commaList names)) fields) := by
  induction fields with
  | nil => rfl
  | cons field fields ih =>
    rw [Download.listSettings]
    simp only [Journaled.outcome_bind_eq_ok_iff]
    exact ⟨_, fieldSettings_of_configuredById h field, _, ih, rfl⟩

/-- The query that is asked is the one for the configured settings, in the order of looking up. -/
theorem jql_of_configuredById (h : ConfiguredById download) :
    download.jql.outcome = .ok (queried download.settings download.address.project
      download.fixFor lookedUp).text := by
  rw [Download.jql, Journaled.outcome_bind_eq_ok_iff]
  refine ⟨_, listSettings_of_configuredById h lookedUp, ?_⟩
  rw [Journaled.outcome_logAll_bind, Journaled.outcome_pure, ← allSettings, setAll_empty,
    ofSettings_allSettings isListForm_commaList (by decide)]

/-- The query that is shown is the one for the configured settings, in the order of showing. -/
theorem outcome_configuredJql (settings : JiraSettings) (project : String)
    (fixFor : Option String) :
    (Query.configuredJql false (Query.configured settings project fixFor)).outcome =
      .ok (queried settings project fixFor shownFields).text := by
  have hsettings : (Jql.Query.empty.set (.urlEncode false)).setAll
      (Query.configured settings project fixFor) =
        queried settings project fixFor shownFields := by
    rw [← ofSettings_allSettings isListForm_values (by decide), ← urlEncode_configured,
      ← setAll_empty]
    rfl
  rw [Query.configuredJql, Journaled.outcome_logAll_bind, Journaled.outcome_pure, hsettings]

theorem wanted_perm (settings : JiraSettings) (project : String) (fixFor : Option String)
    {fields others : List Query.ListField} (h : fields.Perm others) :
    (wanted settings project fixFor fields).Perm (wanted settings project fixFor others) :=
  (h.filterMap _).append_left _

/-- If everything is configured by its number, then Jira is asked for the clauses that are shown, in
another order, with the same sort columns. A filter is asked as it is shown. -/
theorem asked_is_shown_reordered (h : ConfiguredById download) :
    let asked := queried download.settings download.address.project download.fixFor lookedUp
    let shown := queried download.settings download.address.project download.fixFor shownFields
    download.jql.outcome = .ok asked.text ∧
      (Query.configuredJql false (Query.configured download.settings download.address.project
        download.fixFor)).outcome = .ok shown.text ∧
      asked.clauses.Perm shown.clauses ∧ asked.order = shown.order ∧
      (download.settings.filter.getD "" ≠ "" → asked.text = shown.text) := by
  intro asked shown
  refine ⟨jql_of_configuredById h, outcome_configuredJql _ _ _, ?_, rfl, fun hfilter => ?_⟩
  · exact wanted_perm _ _ _ lookedUp_perm_shownFields
  · have htext : ∀ fields, (queried download.settings download.address.project download.fixFor
        fields).text = download.settings.filter.getD "" := fun fields => if_neg hfilter
    exact (htext lookedUp).trans (htext shownFields).symm

def sampleItem (id name : String) : String :=
  "\x7b\"id\":\"" ++ id ++ "\",\"name\":\"" ++ name ++ "\"\x7d"

def sampleServer : Http.Server where
  replies :=
    [ ((.get, "https://jira.example.org/rest/api/2/project/EX/components"),
        .answered ⟨200, "[" ++ sampleItem "11" "Core" ++ "," ++ sampleItem "12" "Docs" ++ "]"⟩),
      ((.get, "https://jira.example.org/rest/api/2/status"),
        .answered ⟨200, "[" ++ sampleItem "6" "Closed" ++ "]"⟩) ]
  isReachable := true

def sampleDownload : Download where
  server := sampleServer
  address := ⟨"https://jira.example.org", "EX"⟩
  credentials := .anonymous
  settings := { JiraSettings.default with
    components := some " 12 ,, 11"
    statuses := some "6"
    sortColumns := some "created desc" }
  fixFor := some "1.0"

theorem configuredById_sample : ConfiguredById sampleDownload := by
  intro field names hnames
  cases field with
  | component =>
    obtain rfl := Option.some.inj hnames
    exact ⟨[⟨some "11", "Core"⟩, ⟨some "12", "Docs"⟩], by rfl, by decide +kernel⟩
  | status =>
    obtain rfl := Option.some.inj hnames
    exact ⟨[⟨some "6", "Closed"⟩], by rfl, by decide +kernel⟩
  | _ => contradiction

theorem asked_is_shown_reordered_sample :
    ConfiguredById sampleDownload ∧
      sampleDownload.jql.outcome = .ok ("project = EX AND fixVersion = \"1.0\" AND " ++
        "component in (12, 11) AND status in (6) ORDER BY created DESC") ∧
      (Query.configuredJql false (Query.configured sampleDownload.settings "EX"
        (some "1.0"))).outcome = .ok ("project = EX AND fixVersion = \"1.0\" AND " ++
        "status in (6) AND component in (12, 11) ORDER BY created DESC") ∧
      (wanted sampleDownload.settings "EX" (some "1.0") lookedUp).Perm
        (wanted sampleDownload.settings "EX" (some "1.0") shownFields) := by
  obtain ⟨hasked, hshown, hperm, _, _⟩ := asked_is_shown_reordered configuredById_sample
  exact ⟨configuredById_sample, hasked.trans rfl, hshown.trans rfl, hperm⟩

end ReleaseNotes.Jira
