import Mathlib.Data.List.Nodup
import ReleaseNotes.Proofs.Http.Requests
import ReleaseNotes.Tracker.Jira

/-!
The steps of a search in Jira: whether the server is there, the list of each configured field, and
the query. Every step has to pass before the next one is taken, so the query is posted exactly if
all lists are there and have everything that is configured, and no issues come without an answer.
-/

namespace ReleaseNotes.Jira

open Http Journaled JiraData Query

section Resolving

variable {known : List Named} {name : String}

/-- The first thing in a list that has a text for its name or its number has a number. -/
def IsResolved (known : List Named) (name : String) : Prop :=
  ∃ before item after, known = before ++ item :: after ∧
    (∀ other ∈ before, other.name ≠ name ∧ other.id ≠ some name) ∧
    (item.name = name ∨ item.id = some name) ∧ item.id.isSome

theorem isResolved_iff (field : ListField) :
    IsResolved known name ↔ ∃ id, resolveName field known name = .ok id := by
  unfold resolveName
  split
  · rename_i id hid
    refine ⟨fun _ => ⟨id, rfl⟩, fun _ => ?_⟩
    obtain ⟨item, hfind, hitem⟩ := Option.bind_eq_some_iff.mp hid
    obtain ⟨hmatch, before, after, hknown, hbefore⟩ := List.find?_eq_some_iff_append.mp hfind
    refine ⟨before, item, after, hknown, fun other hother => ?_, ?_, ?_⟩
    · simpa using hbefore other hother
    · simpa using hmatch
    · exact Option.isSome_iff_exists.mpr ⟨id, hitem⟩
  · rename_i hnone
    refine ⟨?_, nofun⟩
    rintro ⟨before, item, after, rfl, hbefore, hmatch, hitem⟩
    have hfind : (before ++ item :: after).find?
        (fun item => item.name == name || item.id == some name) = some item := by
      refine List.find?_eq_some_iff_append.mpr ⟨by simpa using hmatch, before, after, rfl, ?_⟩
      intro other hother
      simpa using hbefore other hother
    -- The search goes no further than to the first match, even if that one has no number.
    rw [hfind, Option.bind_some] at hnone
    rw [hnone] at hitem
    contradiction

theorem forall_isResolved_iff (field : ListField) (names : String) :
    (∀ name ∈ Text.commaList names, IsResolved known name) ↔
      ∃ ids, resolveNames field names known = .ok ids := by
  rw [resolveNames, exists_mapM_eq_ok_iff]
  simp only [isResolved_iff field]

end Resolving

section Reading

def readNothing? (_ : String) : Option Unit := some ()

def readNamed? (body : String) : Option (List Named) :=
  (Json.parse? body).bind (Json.list? named?)

def elements? (body : String) : Option (List Json) := do
  let json ← (Json.parse? body).bind fun json => json.full? 0
  let record ← Json.Record.ofJson? ["issues"] json
  record.withDefault? "issues" [] (Json.list? some)

def readIssues? (base body : String) : Option (List Issue) :=
  ((Json.parse? body).bind fun json => json.full? 0).bind (found? base)

/-- The values that are read from a list are those read from its items. -/
theorem withDefault?_list? {α : Type} (read : Json → Option α) (record : Json.Record)
    (name : String) :
    record.withDefault? name [] (Json.list? read) =
      (record.withDefault? name [] (Json.list? some)).bind fun items => items.mapM read := by
  unfold Json.Record.withDefault?
  split
  · rename_i json _
    cases json with
    | array items =>
      have hitems : items.mapM some = some items := by
        have hpure : items.mapM some = some (items.map id) := List.mapM_pure
        rwa [List.map_id] at hpure
      rw [Json.list?, Json.list?, hitems, Option.bind_some]
    | _ => rfl
  · rfl

theorem readIssues?_eq_some_iff {base body : String} {issues : List Issue} :
    readIssues? base body = some issues ↔ ∃ elements, elements? body = some elements ∧
      List.Forall₂ (fun element issue => issue? base element = some issue) elements issues := by
  have hread : readIssues? base body =
      (elements? body).bind fun elements => elements.mapM (issue? base) := by
    unfold readIssues? found? elements?
    simp only [Option.bind_eq_bind, Option.bind_assoc, withDefault?_list? (issue? base)]
  rw [hread, Option.bind_eq_some_iff]
  simp only [mapM_eq_some_iff]

end Reading

section Paths

theorem listPath_injective (project : String) : Function.Injective (listPath project) := by
  intro field other h
  have hstart := congrArg (fun path : String => path.toList.take 3) h
  cases field <;> cases other <;> first | rfl | simp [listPath] at h hstart

theorem listPath_ne (project : String) (field : ListField) :
    listPath project field ≠ "serverInfo" := by
  intro h
  have hstart := congrArg (fun path : String => path.toList.take 3) h
  cases field <;> simp [listPath] at hstart

end Paths

inductive Step where
  | server
  | list (field : ListField)
  | search (jql : String)

namespace Download

section Steps

variable (download : Download)

def request : Step → Request
  | .server => download.get "serverInfo"
  | .list field => download.get (listPath download.address.project field)
  | .search jql => download.search jql

/-- The reply to the request of a step is what the step needs: a successful answer, with a list that
has a number for every configured item, or with issues. -/
def Passes : Step → Prop
  | .server => ∃ answer, download.server.replyTo (download.request .server) = .answered answer ∧
      answer.isSuccess = true
  | .list field => ∃ known,
      (download.server.replyTo (download.request (.list field))).read? readNamed? = some known ∧
        ∀ name ∈ Text.commaItems (configured download.settings field), IsResolved known name
  | .search jql => ((download.server.replyTo (download.request (.search jql))).read?
      (readIssues? download.address.base)).isSome

def listSteps (fields : List ListField) : List Step :=
  (fields.filter fun field => (configured download.settings field).isSome).map .list

def lookups : List Step := .server :: download.listSteps lookedUp

def IsConnected : Prop :=
  ∀ jql, download.server.replyTo (download.search jql) ≠ .unreachable

end Steps

variable {download : Download}

section Runs

theorem yields_accept (answer : Answer) (action : String) :
    (accept answer action).Yields [] (if answer.isSuccess then some answer else none) := by
  unfold accept
  split
  · exact yields_pure answer
  · exact (yields_failWith _).logAll_bind _

/-- What is read from an answer that is a success. -/
theorem yields_accept_bind {α : Type} {read : String → Option α} {next : Answer → Journaled α}
    (hnext : ∀ answer, (next answer).Yields [] (read answer.body)) (answer : Answer)
    (action : String) : (accept answer action >>= next).Yields []
      (if answer.isSuccess then read answer.body else none) := by
  have hrun := (yields_accept answer action).bind hnext
  by_cases hsuccess : answer.isSuccess = true
  · rwa [if_pos hsuccess] at hrun ⊢
  · rwa [if_neg hsuccess] at hrun ⊢

theorem yields_checkServer (download : Download) : download.checkServer.Yields
    (download.server.made (download.request .server))
    ((download.server.replyTo (download.request .server)).read? readNothing?) := by
  have hnext : ∀ answer : Answer,
      (pure () : Journaled Unit).Yields [] (readNothing? answer.body) := fun _ => yields_pure ()
  exact (yields_send _ _ _).bind fun answer => yields_accept_bind hnext answer _

theorem yields_namedList (download : Download) (field : ListField) :
    (download.namedList (listPath download.address.project field)).Yields
      (download.server.made (download.request (.list field)))
      ((download.server.replyTo (download.request (.list field))).read? readNamed?) := by
  refine (yields_send _ _ _).bind fun answer => yields_accept_bind (fun answer => ?_) answer _
  unfold readNamed?
  split
  · rename_i items hitems
    rw [hitems]
    exact yields_pure items
  · rename_i hnone
    rw [hnone]
    exact yields_failWith _

theorem yields_readFound (base body : String) :
    (readFound base body).Yields [] (readIssues? base body) := by
  unfold readFound readIssues?
  split
  · rename_i hnone
    rw [hnone]
    exact yields_failWith _
  · rename_i json hjson
    rw [hjson, Option.bind_some]
    split
    · rename_i issues hissues
      rw [hissues]
      exact yields_pure issues
    · rename_i hnone
      rw [hnone]
      exact yields_failWith _

def searched (download : Download) (jql : String) : Journaled (List Issue) := do
  Journaled.log .info ("Downloading issues from Jira: " ++ jql)
  let answer ← download.server.send .searchingJira (download.search jql)
  let answer ← accept answer "search for issues"
  let issues ← readFound download.address.base answer.body
  Journaled.log .info s!"Downloaded {issues.length} issues from Jira."
  return issues

theorem yields_searched (download : Download) (jql : String) :
    (download.searched jql).Yields (download.server.made (download.request (.search jql)))
      ((download.server.replyTo (download.request (.search jql))).read?
        (readIssues? download.address.base)) := by
  apply Yields.log_bind
  refine (yields_send _ _ _).bind fun answer => yields_accept_bind (fun answer => ?_) answer _
  have hread := (yields_readFound download.address.base answer.body).bind fun issues =>
    (yields_pure issues).log_bind .info s!"Downloaded {issues.length} issues from Jira."
  rwa [Option.bind_fun_some] at hread

end Runs

section Performing

theorem performs_checkServer (download : Download) :
    Performs download.request download.Passes [.server] download.checkServer := by
  refine (yields_checkServer download).performs ?_
  rw [Option.isSome_iff_exists]
  constructor
  · rintro ⟨value, hvalue⟩
    obtain ⟨answer, hreply, hsuccess, _⟩ := Reply.read?_eq_some_iff.mp hvalue
    exact ⟨answer, hreply, hsuccess⟩
  · rintro ⟨answer, hreply, hsuccess⟩
    exact ⟨(), Reply.read?_eq_some_iff.mpr ⟨answer, hreply, hsuccess, rfl⟩⟩

/-- The list of a field passes exactly if all configured items can be resolved in it. -/
theorem passes_list_iff {field : ListField} {names : String}
    (hconfigured : configured download.settings field = some names) :
    download.Passes (.list field) ↔
      ∃ known, (download.server.replyTo (download.request (.list field))).read? readNamed? =
        some known ∧ ∃ ids, resolveNames field names known = .ok ids := by
  have hitems : Text.commaItems (configured download.settings field) = Text.commaList names := by
    rw [hconfigured]
    rfl
  simp only [Passes, hitems, forall_isResolved_iff field]

/-- A configured field takes one step, for its list. A field without values takes none. -/
theorem performs_fieldSettings (download : Download) (field : ListField) :
    Performs download.request download.Passes (download.listSteps [field])
      (download.fieldSettings field) := by
  cases hconfigured : configured download.settings field with
  | none =>
    have hsteps : download.listSteps [field] = [] := by simp [listSteps, hconfigured]
    rw [hsteps, fieldSettings, hconfigured]
    exact performs_nil (yields_pure []) rfl
  | some names =>
    have hsteps : download.listSteps [field] = [.list field] := by simp [listSteps, hconfigured]
    have hrun := (yields_namedList download field).bind fun known =>
      (yields_ofExcept (resolveNames field names known)).bind fun ids =>
        yields_pure [Setting.valueList field ids]
    rw [hsteps, fieldSettings, hconfigured]
    have hvalue : (((download.server.replyTo (download.request (.list field))).read?
        readNamed?).bind fun known => (resolveNames field names known).toOption.bind fun ids =>
          some [Setting.valueList field ids]).isSome ↔ download.Passes (.list field) := by
      rw [passes_list_iff hconfigured]
      cases (download.server.replyTo (download.request (.list field))).read? readNamed? with
      | none => simp
      | some known =>
        cases hids : resolveNames field names known with
        | error cause => simp [hids, Except.toOption]
        | ok ids => simp [hids, Except.toOption]
    rw [Reply.read?, Option.bind_assoc] at hrun hvalue
    exact hrun.performs hvalue

theorem listSteps_cons (download : Download) (field : ListField) (fields : List ListField) :
    download.listSteps (field :: fields) =
      download.listSteps [field] ++ download.listSteps fields := by
  unfold listSteps
  rw [← List.map_append, ← List.filter_append, List.singleton_append]

/-- The lists of the configured fields are asked for one by one. -/
theorem performs_listSettings (download : Download) (fields : List ListField) :
    Performs download.request download.Passes (download.listSteps fields)
      (download.listSettings fields) := by
  induction fields with
  | nil => exact performs_nil (yields_pure []) rfl
  | cons field fields ih =>
    rw [listSteps_cons, listSettings]
    apply (performs_fieldSettings download field).bind
    intro first _
    exact ih.bind_of_yields fun rest => yields_pure (first ++ rest)

theorem performs_jql (download : Download) :
    Performs download.request download.Passes (download.listSteps lookedUp) download.jql :=
  (performs_listSettings download lookedUp).bind_of_yields fun _ => (yields_pure _).logAll_bind _

def asked (download : Download) : Journaled String :=
  download.checkServer >>= fun _ => download.jql

theorem fetch_eq (download : Download) :
    download.fetch = download.asked >>= download.searched :=
  (bind_assoc _ _ _).symm

/-- The query is there exactly if the server information and all lists have passed. -/
theorem performs_asked (download : Download) :
    Performs download.request download.Passes download.lookups download.asked :=
  (performs_checkServer download).bind fun _ _ => performs_jql download

theorem jql_of_asked {jql : String} (h : download.asked.outcome = .ok jql) :
    download.jql.outcome = .ok jql := by
  obtain ⟨_, _, hjql⟩ := outcome_bind_eq_ok_iff.mp h
  exact hjql

theorem performs_searched (download : Download) (jql : String) :
    Performs download.request download.Passes [.search jql] (download.searched jql) :=
  (yields_searched download jql).performs Iff.rfl

/-- There is one query at most, so all steps can be given beforehand. -/
theorem exists_performs_fetch (download : Download) :
    ∃ jql, Performs download.request download.Passes (download.lookups ++ [.search jql])
      download.fetch := by
  rw [fetch_eq]
  cases hasked : download.asked.outcome with
  | error failure =>
    -- Nothing is posted after a failure, so any query will do for the last step.
    refine ⟨"", (performs_asked download).bind fun jql hjql => ?_⟩
    rw [hasked] at hjql
    contradiction
  | ok jql =>
    refine ⟨jql, (performs_asked download).bind fun other hother => ?_⟩
    obtain rfl := Except.ok.inj (hasked.symm.trans hother)
    exact performs_searched download jql

end Performing

section Ordering

theorem method_request_of_mem_lookups {step : Step} (h : step ∈ download.lookups) :
    (download.request step).method = .get := by
  rcases List.mem_cons.mp h with rfl | hlist
  · rfl
  · obtain ⟨field, _, rfl⟩ := List.mem_map.mp hlist
    rfl

theorem authorization_request (download : Download) (step : Step) :
    (download.request step).authorization = download.credentials.header := by
  cases step with
  | server => rfl
  | list field => rfl
  | search jql => rfl

/-- After all lookups the query is posted, if there is a connection for it. -/
theorem exists_jql_of_passes (h : ∀ step ∈ download.lookups, download.Passes step) :
    ∃ jql, download.jql.outcome = .ok jql ∧
      download.fetch.requests = download.lookups.map download.request ++
        download.server.made (download.search jql) := by
  have hperforms := performs_asked download
  obtain ⟨jql, hjql⟩ := hperforms.ok_iff.mpr h
  obtain ⟨made, _, hmade, hall⟩ := hperforms.exists_made
  obtain rfl := hall jql hjql
  refine ⟨jql, jql_of_asked hjql, ?_⟩
  rw [fetch_eq, requests_bind_of_ok hjql, hmade.requests_eq,
    (yields_searched download jql).requests_eq]
  rfl

/-- If a lookup does not pass, then nothing is posted. -/
theorem method_of_not_passes (h : ¬∀ step ∈ download.lookups, download.Passes step)
    {request : Request} (hrequest : request ∈ download.fetch.requests) :
    request.method = .get := by
  have hperforms := performs_asked download
  obtain ⟨made, hinitial, hmade, _⟩ := hperforms.exists_made
  cases hasked : download.asked.outcome with
  | error failure =>
    rw [fetch_eq, requests_bind_of_error hasked, hmade.requests_eq] at hrequest
    obtain ⟨step, hstep, rfl⟩ := List.mem_map.mp hrequest
    exact method_request_of_mem_lookups (hinitial.subset hstep)
  | ok jql => exact absurd (hperforms.ok_iff.mp ⟨jql, hasked⟩) h

theorem posts_iff (download : Download) :
    (∃ request ∈ download.fetch.requests, request.method = .post) ↔
      (∀ step ∈ download.lookups, download.Passes step) ∧ download.IsConnected := by
  by_cases hpasses : ∀ step ∈ download.lookups, download.Passes step
  · obtain ⟨jql, _, hrequests⟩ := exists_jql_of_passes hpasses
    rw [hrequests]
    constructor
    · rintro ⟨request, hrequest, hpost⟩
      refine ⟨hpasses, fun other hunreachable => ?_⟩
      rcases List.mem_append.mp hrequest with hlookup | hsearch
      · obtain ⟨step, hstep, rfl⟩ := List.mem_map.mp hlookup
        rw [method_request_of_mem_lookups hstep] at hpost
        contradiction
      · have hmade : download.server.made (download.search jql) = [] := if_pos hunreachable
        rw [hmade] at hsearch
        contradiction
    · rintro ⟨_, hconnected⟩
      have hmade : download.server.made (download.search jql) = [download.search jql] :=
        if_neg (hconnected jql)
      refine ⟨download.search jql, List.mem_append_right _ ?_, rfl⟩
      rw [hmade]
      exact List.mem_singleton_self _
  · refine ⟨fun ⟨request, hrequest, hpost⟩ => ?_, fun h => absurd h.1 hpasses⟩
    have hget := method_of_not_passes hpasses hrequest
    rw [hget] at hpost
    contradiction

def target (download : Download) (step : Step) : Method × String :=
  ((download.request step).method, (download.request step).url)

theorem apiUrl_injective (download : Download) : Function.Injective download.apiUrl := fun _ _ h =>
  (String.append_right_inj _).mp h

/-- The steps have different targets, so a server can reply to each of them as it likes. -/
theorem nodup_targets (download : Download) (jql : String) :
    ((download.lookups ++ [Step.search jql]).map download.target).Nodup := by
  have hlists : ((download.listSteps lookedUp).map download.target).Nodup := by
    have hfields : (lookedUp.filter fun field =>
        (configured download.settings field).isSome).Nodup := List.Nodup.filter _ (by decide)
    unfold listSteps
    rw [List.map_map]
    apply hfields.map
    intro field other h
    exact listPath_injective _ (apiUrl_injective download (Prod.mk.inj h).2)
  have hserver : download.target .server ∉ (download.listSteps lookedUp).map download.target := by
    unfold listSteps
    rw [List.map_map]
    intro h
    obtain ⟨field, _, hfield⟩ := List.mem_map.mp h
    exact listPath_ne _ field (apiUrl_injective download (Prod.mk.inj hfield).2)
  have hlookups : (download.lookups.map download.target).Nodup :=
    List.nodup_cons.mpr ⟨hserver, hlists⟩
  rw [List.map_append, List.nodup_append]
  refine ⟨hlookups, List.nodup_singleton _, ?_⟩
  rintro target htarget _ hsearch rfl
  obtain ⟨step, hstep, rfl⟩ := List.mem_map.mp htarget
  have hmethod := congrArg Prod.fst (List.mem_singleton.mp hsearch)
  rw [target, method_request_of_mem_lookups hstep] at hmethod
  contradiction

/-- The issues of a search are those of an answer with success, one for each of its elements. -/
def IsFound (download : Download) (jql : String) (issues : List Issue) : Prop :=
  ∃ answer elements, download.server.replyTo (download.search jql) = .answered answer ∧
    answer.isSuccess = true ∧ elements? answer.body = some elements ∧
    List.Forall₂ (fun element issue => issue? download.address.base element = some issue)
      elements issues

theorem outcome_searched_iff {jql : String} {issues : List Issue} :
    (download.searched jql).outcome = .ok issues ↔ download.IsFound jql issues := by
  rw [(yields_searched download jql).ok_iff, Reply.read?_eq_some_iff]
  simp only [readIssues?_eq_some_iff]
  constructor
  · rintro ⟨answer, hreply, hsuccess, elements, helements, hissues⟩
    exact ⟨answer, elements, hreply, hsuccess, helements, hissues⟩
  · rintro ⟨answer, elements, hreply, hsuccess, helements, hissues⟩
    exact ⟨answer, hreply, hsuccess, elements, helements, hissues⟩

theorem outcome_fetch_iff {issues : List Issue} :
    download.fetch.outcome = .ok issues ↔
      (∀ step ∈ download.lookups, download.Passes step) ∧
        ∃ jql, download.jql.outcome = .ok jql ∧ download.IsFound jql issues := by
  have hpasses := (performs_asked download).ok_iff
  rw [fetch_eq, outcome_bind_eq_ok_iff]
  constructor
  · rintro ⟨jql, hasked, hsearched⟩
    exact ⟨hpasses.mp ⟨jql, hasked⟩, jql, jql_of_asked hasked, outcome_searched_iff.mp hsearched⟩
  · rintro ⟨hlookups, jql, hjql, hfound⟩
    obtain ⟨other, hother⟩ := hpasses.mpr hlookups
    obtain rfl : other = jql := Except.ok.inj ((jql_of_asked hother).symm.trans hjql)
    exact ⟨other, hother, outcome_searched_iff.mpr hfound⟩

/-- A run asks for the server information, for the list of each configured field and for the issues
of the query, in this order and no further than to the first request that does not pass. No request
goes where another one has gone, and all of them carry the same authorization. The query is posted
exactly if everything before it has passed, and the run has issues exactly if the answer to the
query has them. -/
structure IsOrderly (download : Download) (run : Journaled (List Issue)) : Prop where
  exists_made : ∃ jql made, made <+: download.lookups ++ [.search jql] ∧
    run.requests = made.map download.request ∧ ∀ step ∈ made.dropLast, download.Passes step
  nodup_targets : (run.requests.map fun request => (request.method, request.url)).Nodup
  posts_iff : (∃ request ∈ run.requests, request.method = .post) ↔
    (∀ step ∈ download.lookups, download.Passes step) ∧ download.IsConnected
  requests_of_passes : (∀ step ∈ download.lookups, download.Passes step) →
    ∃ jql, download.jql.outcome = .ok jql ∧
      run.requests = download.lookups.map download.request ++
        download.server.made (download.search jql)
  ok_iff : ∀ issues, run.outcome = .ok issues ↔
    (∀ step ∈ download.lookups, download.Passes step) ∧
      ∃ jql, download.jql.outcome = .ok jql ∧ download.IsFound jql issues
  authorization_eq : ∀ request ∈ run.requests,
    request.authorization = download.credentials.header

/-- Downloads go through their requests in order and no further than to the first one that fails. -/
theorem fetch_isOrderly (download : Download) : download.IsOrderly download.fetch := by
  obtain ⟨jql, hperforms⟩ := exists_performs_fetch download
  obtain ⟨made, hinitial, hmade, _⟩ := hperforms.exists_made
  refine ⟨⟨jql, made, hinitial, hmade.requests_eq, hmade.passes_before⟩, ?_, posts_iff download,
    exists_jql_of_passes, fun issues => outcome_fetch_iff, ?_⟩
  · rw [hmade.requests_eq, List.map_map]
    exact (nodup_targets download jql).sublist (hinitial.sublist.map download.target)
  · intro request hrequest
    rw [hmade.requests_eq] at hrequest
    obtain ⟨step, _, rfl⟩ := List.mem_map.mp hrequest
    exact authorization_request download step

def targetsInFull : List (Method × String) :=
  (["serverInfo", "project/EX/components", "project/EX/versions", "status", "resolution",
    "issuetype", "priority"].map fun path =>
      (Method.get, "https://jira.example.org/rest/api/2/" ++ path)) ++
    [(.post, "https://jira.example.org/rest/api/2/search")]

def fullServer : Server where
  replies := targetsInFull.map fun target =>
    (target, .answered ⟨200, if target.1 = .post then "\x7b\x7d"
      else "[\x7b\"id\":\"7\",\"name\":\"A\"\x7d]"⟩)
  isReachable := true

def fullDownload : Download where
  server := fullServer
  address := ⟨"https://jira.example.org", "EX"⟩
  credentials := .bearer "key"
  settings := { JiraSettings.default with
    components := some "A"
    fixVersions := some "A"
    statuses := some "A"
    resolutions := some "7"
    types := some "A"
    priorities := some "A" }
  fixFor := none

theorem passes_lookups_sample : ∀ step ∈ fullDownload.lookups, fullDownload.Passes step := by
  intro step hstep
  rcases List.mem_cons.mp hstep with rfl | hlist
  · exact ⟨⟨200, "[\x7b\"id\":\"7\",\"name\":\"A\"\x7d]"⟩, by decide +kernel, rfl⟩
  · obtain ⟨field, _, rfl⟩ := List.mem_map.mp hlist
    have hread : (fullDownload.server.replyTo (fullDownload.request (.list field))).read?
        readNamed? = some [⟨some "7", "A"⟩] := by
      cases field <;> decide +kernel
    have hnames : ∀ name ∈ Text.commaItems (configured fullDownload.settings field),
        name = "A" ∨ name = "7" := by
      cases field <;> decide +kernel
    refine ⟨_, hread, fun name hname => ⟨[], _, [], rfl, nofun, ?_, rfl⟩⟩
    rcases hnames name hname with rfl | rfl
    · exact Or.inl rfl
    · exact Or.inr rfl

theorem isFound_sample (jql : String) : fullDownload.IsFound jql [] := by
  have hreply : fullDownload.server.replyTo (fullDownload.search "") =
      .answered ⟨200, "\x7b\x7d"⟩ := by decide +kernel
  exact ⟨_, [], hreply, rfl, by rfl, .nil⟩

/-- With all fields configured, all lists are looked up before the query is posted. -/
theorem fetch_isOrderly_sample :
    fullDownload.fetch.outcome = .ok [] ∧
      fullDownload.fetch.requests.map (fun request => (request.method, request.url)) =
        targetsInFull := by
  have horderly := fetch_isOrderly fullDownload
  obtain ⟨jql, hjql, hrequests⟩ := horderly.requests_of_passes passes_lookups_sample
  refine ⟨(horderly.ok_iff []).mpr ⟨passes_lookups_sample, jql, hjql, isFound_sample jql⟩, ?_⟩
  have hmade : fullDownload.server.made (fullDownload.search jql) = [fullDownload.search jql] := by
    obtain ⟨_, _, hreply, _⟩ := isFound_sample jql
    refine if_neg ?_
    rw [hreply]
    exact nofun
  have hlookups : (fullDownload.lookups.map fullDownload.request).map
      (fun request => (request.method, request.url)) = targetsInFull.dropLast := by
    decide +kernel
  rw [hrequests, hmade, List.map_append, hlookups]
  rfl

end Ordering

end Download

end ReleaseNotes.Jira
