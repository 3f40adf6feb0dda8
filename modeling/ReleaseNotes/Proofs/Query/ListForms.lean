import ReleaseNotes.Proofs.Query.Run
import ReleaseNotes.Query.Parameters

/-!
Lists of values that come as separate items, compared with lists that come as one text with commas.
In the language both forms of a setting do the same to every query, if no item has a comma of its
own. Queries made of parameters take separate items of components only: the other settings of this
form fail, and a run goes on as if they had not been made.
-/

namespace ReleaseNotes.Query

open Text

/-- What a list of items does to a query in the language: the clause for the items that are not
blank takes the place of the one for the field so far. -/
theorem set_valueList_eq (query : Jql.Query) (field : ListField) (items : List String) :
    query.set (.valueList field items) =
      { query with
        clauses := (Jql.listClause? field items).elim query.clauses
          (Jql.setClause · query.clauses) } :=
  Jql.set_eq query (.valueList field items)

theorem set_values_joinWith {items : List String} (h : ∀ item ∈ items, ',' ∉ item.toList)
    (query : Jql.Query) (field : ListField) :
    query.set (.values field (joinWith "," items)) = query.set (.valueList field items) :=
  congrArg (query.restrict field) (commaList_joinWith h)

section Parameters

theorem set_component_eq (query : Parameters.Query) (items : List String) :
    query.set (.valueList .component items) =
      .ok { query with
        parameters := query.parameters ++
          (nonBlankItems items).map fun item => ⟨"component", trim item⟩ } := by
  have hadded : Parameters.settingParameters (.valueList .component items) =
      (nonBlankItems items).map fun item => ⟨"component", trim item⟩ := by
    rw [Parameters.settingParameters, trimmedItems_eq_map]
    exact List.map_map
  rw [← hadded]
  rfl

theorem set_components_joinWith {items : List String} (h : ∀ item ∈ items, ',' ∉ item.toList)
    (query : Parameters.Query) :
    query.set (.values .component (joinWith "," items)) =
      query.set (.valueList .component items) := by
  have hadded : Parameters.settingParameters (.values .component (joinWith "," items)) =
      Parameters.settingParameters (.valueList .component items) :=
    congrArg (Parameters.valueParameters .component) (commaList_joinWith h)
  have hset : query.set (.values .component (joinWith "," items)) =
      .ok { query with
        parameters := query.parameters ++
          Parameters.settingParameters (.values .component (joinWith "," items)) } := rfl
  rw [hset, hadded]
  rfl

variable {field : ListField}

/-- All lists but that of the components must be given as one text. -/
theorem exists_set_valueList_eq_error (h : field ≠ .component) (query : Parameters.Query)
    (items : List String) :
    ∃ operation, query.set (.valueList field items) = .error (.noListOperation operation) := by
  cases field with
  | component => contradiction
  | _ => exact ⟨_, rfl⟩

/-- A form that is not supported is as good as not given: the settings around it do their work. -/
theorem setAll_valueList (h : field ≠ .component) (query : Parameters.Query) (items : List String)
    (before after : List Setting) :
    query.setAll (before ++ .valueList field items :: after) = query.setAll (before ++ after) := by
  have hskip : ∀ query : Parameters.Query,
      query.setAll (.valueList field items :: after) = query.setAll after := by
    intro query
    obtain ⟨operation, hset⟩ := exists_set_valueList_eq_error h query items
    rw [Parameters.Query.setAll, List.foldl_cons, hset]
    rfl
  have happend : ∀ settings, query.setAll (before ++ settings) =
      (query.setAll before).setAll settings := fun settings => List.foldl_append
  rw [happend, hskip, happend]

end Parameters

/-- Items without commas do the same to every query in the language whether they come one by one or
in one text: their clause takes its place among the others. So do components to queries made of
parameters, to which they are added. The other lists of items are refused by these queries, whatever
the items are, and leave every run as it is without them. -/
theorem set_valueList_eq_set_values {items : List String} (h : ∀ item ∈ items, ',' ∉ item.toList) :
    (∀ (query : Jql.Query) (field : ListField),
      let next : Jql.Query := { query with
        clauses := (Jql.listClause? field items).elim query.clauses
          (Jql.setClause · query.clauses) }
      query.set (.valueList field items) = next ∧
        query.set (.values field (joinWith "," items)) = next) ∧
      (∀ query : Parameters.Query,
        let next : Parameters.Query := { query with
          parameters := query.parameters ++
            (nonBlankItems items).map fun item => ⟨"component", trim item⟩ }
        query.set (.valueList .component items) = .ok next ∧
          query.set (.values .component (joinWith "," items)) = .ok next) ∧
      ∀ (query : Parameters.Query) (field : ListField), field ≠ .component →
        ∀ given : List String,
          (∃ operation,
            query.set (.valueList field given) = .error (.noListOperation operation)) ∧
          ∀ before after : List Setting,
            query.setAll (before ++ .valueList field given :: after) =
              query.setAll (before ++ after) := by
  refine ⟨fun query field => ?_, fun query => ?_, fun query field hfield given => ⟨?_, ?_⟩⟩
  · have hlist := set_valueList_eq query field items
    exact ⟨hlist, (set_values_joinWith h query field).trans hlist⟩
  · have hlist := set_component_eq query items
    exact ⟨hlist, (set_components_joinWith h query).trans hlist⟩
  · exact exists_set_valueList_eq_error hfield query given
  · exact setAll_valueList hfield query given

def sampleItems : List String := [" In Progress ", "", "Closed"]

def sampleQuery : Jql.Query :=
  ⟨"", false, [⟨.listed .status, .oneOf ["Open"]⟩, ⟨.project, .equals "EX"⟩], []⟩

theorem set_valueList_sample :
    (∀ item ∈ sampleItems, ',' ∉ item.toList) ∧
      (sampleQuery.set (.valueList .status sampleItems)).text =
        "status in (\"In Progress\", Closed) AND project = EX" ∧
      (sampleQuery.set (.values .status " In Progress ,,Closed")).text =
        "status in (\"In Progress\", Closed) AND project = EX" ∧
      Parameters.Query.empty.setAll [.valueList .status sampleItems, .values .component "core"] =
        ⟨"", [⟨"component", "core"⟩]⟩ := by
  have hitems : ∀ item ∈ sampleItems, ',' ∉ item.toList := by decide
  obtain ⟨hjql, _, hparameters⟩ := set_valueList_eq_set_values hitems
  have hlist : (sampleQuery.set (.valueList .status sampleItems)).text =
      "status in (\"In Progress\", Closed) AND project = EX" := by decide
  refine ⟨hitems, hlist, ?_, ?_⟩
  · have hjoined : joinWith "," sampleItems = " In Progress ,,Closed" := by decide
    have hforms := hjql sampleQuery .status
    rw [← hjoined, hforms.2, ← hforms.1]
    exact hlist
  · have hskip := (hparameters Parameters.Query.empty .status nofun sampleItems).2 []
      [.values .component "core"]
    exact hskip.trans (by decide)

end ReleaseNotes.Query
