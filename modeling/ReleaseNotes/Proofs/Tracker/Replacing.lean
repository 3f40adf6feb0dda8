import ReleaseNotes.Proofs.Query.Run
import ReleaseNotes.Proofs.Tracker.Searching

/-!
A filter in place of all the other settings of a query. Jira is asked for the filter as it is
configured, and nothing but the filter. The lists of the configured fields are looked up all the
same, so a name that Jira does not know still ends a download whose query does not use it.
-/

namespace ReleaseNotes.Jira

open Http Journaled Query

namespace Download

variable {download : Download} {filter : String}

def unrestricted (download : Download) : Download :=
  { download with
    fixFor := none
    settings := { download.settings with
      components := none
      fixVersions := none
      statuses := none
      resolutions := none
      types := none
      priorities := none
      sortColumns := none } }

/-- The lists of all configured fields are there, with everything that is configured. -/
def ListsPass (download : Download) : Prop :=
  ∀ step ∈ download.listSteps lookedUp, download.Passes step

/-- Two downloads have the same issues, or neither of them has any. -/
def Agree (first second : Download) : Prop :=
  ∀ issues, first.fetch.outcome = .ok issues ↔ second.fetch.outcome = .ok issues

section Asking

/-- Looking up names restricts fields. It chooses neither a filter nor an encoding. -/
theorem exists_valueList_of_mem {fields : List ListField} {lists : List Setting}
    (h : (download.listSettings fields).outcome = .ok lists) {setting : Setting}
    (hsetting : setting ∈ lists) : ∃ field ids, setting = .valueList field ids := by
  induction fields generalizing lists with
  | nil =>
    obtain rfl := outcome_pure_eq_ok_iff.mp h
    contradiction
  | cons field fields ih =>
    obtain ⟨first, hfirst, hrest⟩ := outcome_bind_eq_ok_iff.mp h
    obtain ⟨rest, hlists, hpure⟩ := outcome_bind_eq_ok_iff.mp hrest
    obtain rfl := outcome_pure_eq_ok_iff.mp hpure
    rcases List.mem_append.mp hsetting with hmem | hmem
    · rw [fieldSettings] at hfirst
      split at hfirst
      · obtain rfl := outcome_pure_eq_ok_iff.mp hfirst
        contradiction
      · obtain ⟨known, _, hresolved⟩ := outcome_bind_eq_ok_iff.mp hfirst
        obtain ⟨ids, _, hids⟩ := outcome_bind_eq_ok_iff.mp hresolved
        obtain rfl := outcome_pure_eq_ok_iff.mp hids
        exact ⟨field, ids, List.mem_singleton.mp hmem⟩
    · exact ih hlists hmem

theorem jql_eq_filter (hfilter : download.settings.filter = some filter) (hne : filter ≠ "")
    {jql : String} (hjql : download.jql.outcome = .ok jql) : jql = filter := by
  obtain ⟨lists, hlists, hdone⟩ := outcome_bind_eq_ok_iff.mp hjql
  rw [outcome_logAll_bind] at hdone
  obtain rfl := outcome_pure_eq_ok_iff.mp hdone
  have hnone : lists.filterMap Jql.urlEncode? = [] := by
    rw [List.filterMap_eq_nil_iff]
    intro setting hsetting
    obtain ⟨field, ids, rfl⟩ := exists_valueList_of_mem hlists hsetting
    rfl
  have hencode : Jql.last? Jql.urlEncode? ([.urlEncode false, .project download.address.project] ++
      download.fixFor.toList.map .fixVersion ++ lists ++
      download.settings.sortColumns.toList.map .sort ++ [.filter filter]) = some false := by
    simp only [Jql.last?, List.filterMap_append, hnone]
    cases download.fixFor <;> cases download.settings.sortColumns <;> rfl
  rw [hfilter, Option.toList_some, List.map_singleton, Jql.setAll_empty, Jql.Query.text,
    Jql.Query.plain]
  simp only [Jql.ofSettings, hencode, Jql.last?_append_singleton, Jql.filter?, Option.some_or,
    Option.getD_some, if_neg hne]
  rfl

/-- Once the lists have passed, the query is the filter. -/
theorem jql_of_listsPass (hfilter : download.settings.filter = some filter) (hne : filter ≠ "")
    (hpass : download.ListsPass) : download.jql.outcome = .ok filter := by
  obtain ⟨jql, hjql⟩ := (performs_jql download).ok_iff.mpr hpass
  rw [hjql, jql_eq_filter hfilter hne hjql]

/-- A download with a filter has issues if the server is there, if the lists pass, and if the answer
to the filter has issues. -/
theorem fetch_ok_iff_of_filter (hfilter : download.settings.filter = some filter)
    (hne : filter ≠ "") {issues : List Issue} :
    download.fetch.outcome = .ok issues ↔
      download.ListsPass ∧ download.Passes .server ∧ download.IsFound filter issues := by
  rw [outcome_fetch_iff, lookups, List.forall_mem_cons]
  constructor
  · rintro ⟨⟨hserver, hpass⟩, jql, hjql, hfound⟩
    obtain rfl := jql_eq_filter hfilter hne hjql
    exact ⟨hpass, hserver, hfound⟩
  · rintro ⟨hpass, hserver, hfound⟩
    exact ⟨⟨hserver, hpass⟩, filter, jql_of_listsPass hfilter hne hpass, hfound⟩

end Asking

section Replacing

/-- Without configured fields there is no list to look up. -/
theorem listsPass_unrestricted (download : Download) : download.unrestricted.ListsPass := nofun

/-- Up to the lists, and after them, the settings that are replaced have no part in the run. -/
theorem outcome_eq_of_listsPass (hfilter : download.settings.filter = some filter)
    (hne : filter ≠ "") (hpass : download.ListsPass) :
    download.fetch.outcome = download.unrestricted.fetch.outcome := by
  have hjql := jql_of_listsPass hfilter hne hpass
  have hunrestricted : download.unrestricted.jql.outcome = .ok filter :=
    jql_of_listsPass hfilter hne download.listsPass_unrestricted
  have hrun : ∀ run : Download, run.checkServer = download.checkServer →
      run.searched = download.searched → run.jql.outcome = .ok filter →
      run.fetch.outcome =
        (download.checkServer >>= fun _ => download.searched filter).outcome := by
    intro run hcheck hsearched hrun
    rw [fetch_eq, asked, bind_assoc, hcheck, hsearched]
    cases h : download.checkServer.outcome with
    | error failure => rw [bind_of_error h, bind_of_error h]
    | ok value => rw [bind_of_ok h, bind_of_ok h, bind_of_ok hrun]
  exact (hrun download rfl rfl hjql).trans (hrun download.unrestricted rfl rfl hunrestricted).symm

/-- What a filter replaces, and what it does not. The only query that is ever posted is the filter,
and it is posted if the server is there, if the lists pass and if there is a connection for it. If
the lists pass, then the outcome is the one without the other settings, be it a success or a
failure; there are no issues if they do not pass. Another download with the same filter agrees
exactly if its lists pass in the same case, or if there are no issues anyway. -/
structure IsReplacing (download : Download) (filter : String) : Prop where
  posted : ∀ request ∈ download.fetch.requests, request.method = .post →
    request = download.search filter
  posts_iff : download.search filter ∈ download.fetch.requests ↔
    download.Passes .server ∧ download.ListsPass ∧ download.IsConnected
  outcome_eq : download.ListsPass → download.fetch.outcome = download.unrestricted.fetch.outcome
  ok_iff : ∀ issues, download.fetch.outcome = .ok issues ↔
    download.ListsPass ∧ download.unrestricted.fetch.outcome = .ok issues
  agree_iff : ∀ other : Download, other.unrestricted = download.unrestricted →
    (download.Agree other ↔ (download.ListsPass ↔ other.ListsPass) ∨
      ∀ issues, download.unrestricted.fetch.outcome ≠ .ok issues)

/-- With a filter, the other settings decide on nothing but whether their lists pass. -/
theorem fetch_ok_iff_unrestricted (hfilter : download.settings.filter = some filter)
    (hne : filter ≠ "") (issues : List Issue) : download.fetch.outcome = .ok issues ↔
      download.ListsPass ∧ download.unrestricted.fetch.outcome = .ok issues := by
  have hkept : download.unrestricted.settings.filter = some filter := hfilter
  have hunrestricted : download.unrestricted.fetch.outcome = .ok issues ↔
      download.Passes .server ∧ download.IsFound filter issues :=
    (fetch_ok_iff_of_filter hkept hne).trans (and_iff_right download.listsPass_unrestricted)
  rw [fetch_ok_iff_of_filter hfilter hne, hunrestricted]

/-- Nothing but the filter is ever posted. -/
theorem posted_of_filter (hfilter : download.settings.filter = some filter) (hne : filter ≠ "")
    {request : Request} (hrequest : request ∈ download.fetch.requests)
    (hpost : request.method = .post) : request = download.search filter := by
  by_cases hpasses : ∀ step ∈ download.lookups, download.Passes step
  · obtain ⟨jql, hjql, hrequests⟩ := exists_jql_of_passes hpasses
    obtain rfl := jql_eq_filter hfilter hne hjql
    rw [hrequests] at hrequest
    rcases List.mem_append.mp hrequest with hlookup | hsearch
    · obtain ⟨step, hstep, rfl⟩ := List.mem_map.mp hlookup
      rw [method_request_of_mem_lookups hstep] at hpost
      contradiction
    · rw [Server.made] at hsearch
      split at hsearch
      · contradiction
      · exact List.mem_singleton.mp hsearch
  · rw [method_of_not_passes hpasses hrequest] at hpost
    contradiction

theorem posts_filter_iff (hfilter : download.settings.filter = some filter) (hne : filter ≠ "") :
    download.search filter ∈ download.fetch.requests ↔
      download.Passes .server ∧ download.ListsPass ∧ download.IsConnected := by
  have hposts : (∃ request ∈ download.fetch.requests, request.method = .post) ↔
      download.search filter ∈ download.fetch.requests := by
    refine ⟨fun ⟨request, hrequest, hpost⟩ => ?_, fun hmem => ⟨_, hmem, rfl⟩⟩
    rwa [← posted_of_filter hfilter hne hrequest hpost]
  rw [← hposts, posts_iff, lookups, List.forall_mem_cons, and_assoc]
  rfl

/-- A filter replaces the query, but not the requests for what is configured besides it. -/
theorem fetch_isReplacing (download : Download) (filter : String)
    (hfilter : download.settings.filter = some filter) (hne : filter ≠ "") :
    download.IsReplacing filter := by
  refine ⟨fun _ hrequest hpost => posted_of_filter hfilter hne hrequest hpost,
    posts_filter_iff hfilter hne, outcome_eq_of_listsPass hfilter hne,
    fetch_ok_iff_unrestricted hfilter hne, ?_⟩
  intro other hother
  have hotherFilter : other.settings.filter = some filter := by
    have hkept : other.unrestricted.settings.filter = download.unrestricted.settings.filter := by
      rw [hother]
    exact hkept.trans hfilter
  have hok := fetch_ok_iff_unrestricted hfilter hne
  have hotherOk := fetch_ok_iff_unrestricted hotherFilter hne
  rw [hother] at hotherOk
  simp only [Agree, hok, hotherOk]
  constructor
  · intro hagree
    by_cases hissues : ∃ issues, download.unrestricted.fetch.outcome = .ok issues
    · obtain ⟨issues, hissues⟩ := hissues
      exact .inl (by simpa only [hissues, and_true] using hagree issues)
    · exact .inr (not_exists.mp hissues)
  · rintro (hpass | hnone) issues
    · rw [hpass]
    · exact ⟨fun h => absurd h.2 (hnone issues), fun h => absurd h.2 (hnone issues)⟩

end Replacing

def filtered (statusList : String) : Download where
  server :=
    { replies :=
        [ ((.get, "https://jira.example.org/rest/api/2/serverInfo"), .answered ⟨200, ""⟩),
          ((.get, "https://jira.example.org/rest/api/2/status"), .answered ⟨200, statusList⟩),
          ((.post, "https://jira.example.org/rest/api/2/search"),
            .answered ⟨200, "\x7b\"issues\":[]\x7d"⟩) ]
      isReachable := true }
  address := ⟨"https://jira.example.org", "EX"⟩
  credentials := .anonymous
  settings := { JiraSettings.default with
    filter := some "project = EX"
    statuses := some "Closed" }
  fixFor := none

def closedList : String := "[\x7b\"id\":\"6\",\"name\":\"Closed\"\x7d]"

theorem isReplacing_closed :
    (filtered closedList).settings.filter = some "project = EX" ∧ "project = EX" ≠ "" ∧
      (filtered closedList).fetch.outcome = .ok [] ∧
      (filtered closedList).fetch.requests.map Request.method = [.get, .get, .post] ∧
      (filtered closedList).IsReplacing "project = EX" :=
  ⟨rfl, by decide, outcome_eq_ok_iff.mpr (by decide +kernel), by decide +kernel,
    fetch_isReplacing _ _ rfl (by decide)⟩

/-- A status that Jira does not have fails the download, and the query does not even use it. -/
theorem not_agree_unrestricted : (filtered "[]").settings.filter = some "project = EX" ∧
    (filtered "[]").unrestricted.fetch.outcome = .ok [] ∧
    ¬(filtered "[]").Agree (filtered "[]").unrestricted := by
  have hfound : (filtered "[]").unrestricted.fetch.outcome = .ok [] :=
    outcome_eq_ok_iff.mpr (by decide +kernel)
  refine ⟨rfl, hfound, fun hagree => ?_⟩
  have hsome := outcome_eq_ok_iff.mp ((hagree []).mpr hfound)
  have hnone : (filtered "[]").fetch.outcome.toOption = none := by decide +kernel
  exact Option.some_ne_none _ (hsome.symm.trans hnone)

end Download

end ReleaseNotes.Jira
