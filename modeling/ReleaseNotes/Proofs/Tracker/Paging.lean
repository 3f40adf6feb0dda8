import Mathlib.Data.List.Nodup
import ReleaseNotes.Proofs.Http.Requests
import ReleaseNotes.Tracker.GitHub

/-!
Downloading a list of issues page by page. Full pages have addresses of their own, so a server has
only finitely many of them and the bound on their number is never reached. A server that has a list
on its pages is asked for exactly the pages of the list and one page that is not full; any other one
is not asked again after a page without items.
-/

namespace ReleaseNotes.GitHub

open Http Journaled

def readItems? (body : String) : Option (List GitHubItem) :=
  (Json.parse? body).bind (Json.list? GitHubItem.ofJson?)

theorem pageSize_pos : 0 < pageSize := by decide

namespace Download

section Page

variable (download : Download) (state : String) (number : Nat)

def itemsOn? : Option (List GitHubItem) :=
  (download.server.replyTo (download.page state number)).read? readItems?

def read : Journaled (List GitHubItem) := do
  let answer ← download.server.send .downloadingFromGitHub (download.page state number)
  items answer

theorem yields_items (answer : Answer) : (items answer).Yields []
    (if answer.isSuccess then readItems? answer.body else none) := by
  unfold items readItems?
  split
  · split
    · rename_i batch hbatch
      rw [hbatch]
      exact yields_pure batch
    · rename_i hbatch
      rw [hbatch]
      exact yields_failWith _
  · exact (yields_failWith _).logAll_bind _

theorem yields_read : (download.read state number).Yields
    (download.server.made (download.page state number)) (download.itemsOn? state number) :=
  (yields_send _ _ _).bind yields_items

theorem pagesFrom_succ (bound : Nat) :
    download.pagesFrom state (bound + 1) number = download.read state number >>= fun batch =>
      if batch.length < pageSize then pure batch
      else download.pagesFrom state bound (number + 1) >>= fun rest => pure (batch ++ rest) := by
  rw [read, bind_assoc]
  rfl

theorem page_injective (state : String) :
    Function.Injective fun number => (download.page state number).url := by
  intro number other h
  have htext : toString number = toString other := (String.append_right_inj _).mp h
  rw [Nat.toString_eq_repr, Nat.toString_eq_repr, Nat.repr_eq_ofList_toDigits,
    Nat.repr_eq_ofList_toDigits, String.ofList_inj] at htext
  have hvalue := congrArg (fun digits => Nat.ofDigitChars 10 digits 0) htext
  simpa only [Nat.ofDigitChars_toDigits (b := 10) (by decide) (by decide)] using hvalue

end Page

variable {download : Download} {state : String}

section Bound

def IsFull (download : Download) (state : String) (number : Nat) : Prop :=
  ∃ batch, download.itemsOn? state number = some batch ∧ pageSize ≤ batch.length

/-- The full pages have replies of their own, so there are no more of them than replies. -/
theorem exists_not_isFull (download : Download) (state : String) (start : Nat) :
    ∃ number < download.server.replies.length + 1, ¬download.IsFull state (start + number) := by
  by_contra hall
  have hfull : ∀ number < download.server.replies.length + 1,
      download.IsFull state (start + number) := by
    intro number hnumber
    by_contra hnot
    exact hall ⟨number, hnumber, hnot⟩
  let address : Nat → Method × String := fun number =>
    (.get, (download.page state (start + number)).url)
  have hinjective : Function.Injective address := by
    intro number other h
    have heq := page_injective download state (Prod.mk.inj h).2
    omega
  have hsubset : (List.range (download.server.replies.length + 1)).map address ⊆
      download.server.replies.map Prod.fst := by
    intro key hkey
    obtain ⟨number, hnumber, rfl⟩ := List.mem_map.mp hkey
    obtain ⟨batch, hbatch, _⟩ := hfull number (List.mem_range.mp hnumber)
    have hread : (download.itemsOn? state (start + number)).isSome :=
      Option.isSome_iff_exists.mpr ⟨batch, hbatch⟩
    exact Server.mem_replies_of_read? hread
  have hlength := (List.nodup_range.map hinjective).length_le_of_subset hsubset
  simp only [List.length_map, List.length_range] at hlength
  omega

/-- A bound that reaches a page that is not full is as good as any greater one. -/
theorem pagesFrom_add {bound start : Nat}
    (h : ∃ number < bound, ¬download.IsFull state (start + number)) (more : Nat) :
    download.pagesFrom state (bound + more) start = download.pagesFrom state bound start := by
  induction bound generalizing start with
  | zero =>
    obtain ⟨number, hnumber, _⟩ := h
    omega
  | succ bound ih =>
    have hsucc : bound + 1 + more = bound + more + 1 := by omega
    rw [hsucc, pagesFrom_succ, pagesFrom_succ]
    cases hread : (download.read state start).outcome with
    | error failure => rw [bind_of_error hread, bind_of_error hread]
    | ok batch =>
      rw [bind_of_ok hread, bind_of_ok hread]
      by_cases hlast : batch.length < pageSize
      · rw [if_pos hlast, if_pos hlast]
      · have hitems := ((yields_read download state start).ok_iff batch).mp hread
        have hstart : download.IsFull state start := ⟨batch, hitems, Nat.le_of_not_lt hlast⟩
        have hlater : ∃ number < bound, ¬download.IsFull state (start + 1 + number) := by
          obtain ⟨number, hnumber, hnot⟩ := h
          cases number with
          | zero => exact absurd hstart hnot
          | succ number =>
            refine ⟨number, by omega, ?_⟩
            rwa [Nat.add_assoc, Nat.add_comm 1 number]
        rw [if_neg hlast, if_neg hlast, ih hlater]

/-- No server has answers for so many pages that the bound matters, so it can be raised. -/
theorem inState_eq (download : Download) (state : String) (more : Nat) :
    download.inState state =
      download.pagesFrom state (download.server.replies.length + 1 + more) 1 :=
  (pagesFrom_add (exists_not_isFull download state 1) more).symm

end Bound

section Complete

/-- The server has a list on the pages for a state: each page has the items of the list from its
place on, as many as fit on it. -/
def IsServed (download : Download) (state : String) (listed : List GitHubItem) : Prop :=
  ∀ number ≤ listed.length / pageSize,
    download.itemsOn? state (1 + number) =
      some ((listed.drop (number * pageSize)).take pageSize)

/-- The requests for so many issues: one for each full page, and one for the page after them. -/
def pageRequests (download : Download) (state : String) (start count : Nat) : List Request :=
  (List.range (count / pageSize + 1)).map fun number => download.page state (start + number)

theorem pageRequests_of_lt {start count : Nat} (h : count < pageSize) :
    download.pageRequests state start count = [download.page state start] := by
  rw [pageRequests, Nat.div_eq_of_lt h]
  rfl

theorem pageRequests_of_le {start count : Nat} (h : pageSize ≤ count) :
    download.pageRequests state start count =
      download.page state start :: download.pageRequests state (start + 1) (count - pageSize) := by
  have hdiv : count / pageSize = (count - pageSize) / pageSize + 1 :=
    Nat.div_eq_sub_div pageSize_pos h
  rw [pageRequests, pageRequests, hdiv, List.range_succ_eq_map, List.map_cons, List.map_map]
  refine congrArg (List.cons _) (List.map_congr_left fun number _ => ?_)
  rw [Function.comp_apply, Nat.succ_eq_add_one, Nat.add_assoc, Nat.add_comm 1 number]

/-- A list that is served comes in full from any page on. The bound goes down by a page as the list
does. -/
theorem yields_pagesFrom {listed : List GitHubItem} {bound start : Nat}
    (hbound : listed.length / pageSize < bound)
    (hserved : ∀ number ≤ listed.length / pageSize, download.itemsOn? state (start + number) =
      some ((listed.drop (number * pageSize)).take pageSize)) :
    (download.pagesFrom state bound start).Yields
      (download.pageRequests state start listed.length) (some listed) := by
  induction bound generalizing listed start with
  | zero => exact absurd hbound (Nat.not_lt_zero _)
  | succ bound ih =>
    have hfirst : download.itemsOn? state start = some (listed.take pageSize) := by
      have hzero := hserved 0 (Nat.zero_le _)
      rwa [Nat.zero_mul, List.drop_zero] at hzero
    have hread := yields_read download state start
    have hmade : download.server.made (download.page state start) = [download.page state start] :=
      Server.made_of_read? (Option.isSome_iff_exists.mpr ⟨_, hfirst⟩)
    rw [hmade, hfirst] at hread
    rw [pagesFrom_succ]
    by_cases hshort : listed.length < pageSize
    · have hall : listed.take pageSize = listed := List.take_of_length_le (Nat.le_of_lt hshort)
      rw [hall] at hread
      rw [pageRequests_of_lt hshort]
      apply hread.bind_of_some
      rw [if_pos hshort]
      exact yields_pure listed
    · have hfull : pageSize ≤ listed.length := Nat.le_of_not_lt hshort
      have hdiv : listed.length / pageSize = (listed.length - pageSize) / pageSize + 1 :=
        Nat.div_eq_sub_div pageSize_pos hfull
      have hlater : (download.pagesFrom state bound (start + 1)).Yields
          (download.pageRequests state (start + 1) (listed.drop pageSize).length)
          (some (listed.drop pageSize)) := by
        apply ih
        · rw [List.length_drop]
          omega
        · intro number hnumber
          rw [List.length_drop] at hnumber
          have hnext := hserved (number + 1) (by omega)
          rwa [Nat.succ_mul, Nat.add_comm (number * pageSize), ← List.drop_drop,
            Nat.add_comm number 1, ← Nat.add_assoc] at hnext
      have hrest := hlater.bind fun rest => yields_pure (listed.take pageSize ++ rest)
      rw [Option.bind_some, List.take_append_drop, List.length_drop] at hrest
      rw [pageRequests_of_le hfull, ← List.singleton_append]
      apply hread.bind_of_some
      have hlength : (listed.take pageSize).length = pageSize := by
        rw [List.length_take, Nat.min_eq_left hfull]
      rw [if_neg (Nat.not_lt.mpr (Nat.le_of_eq hlength.symm))]
      exact hrest

theorem yields_inState {listed : List GitHubItem} (h : download.IsServed state listed) :
    (download.inState state).Yields (download.pageRequests state 1 listed.length)
      (some listed) := by
  rw [inState_eq download state (listed.length / pageSize)]
  exact yields_pagesFrom (by omega) h

end Complete

section Stopping

def pageOf (download : Download) (step : String × Nat) : Request :=
  download.page step.1 step.2

def HasItems (download : Download) (step : String × Nat) : Prop :=
  (download.itemsOn? step.1 step.2).isSome

theorem exists_proceeds_read (download : Download) (state : String) (number : Nat) :
    ∃ made, Proceeds download.pageOf download.HasItems made (download.read state number) := by
  have hread : (download.read state number).Yields
      (download.server.made (download.pageOf (state, number)))
      ((download.server.replyTo (download.pageOf (state, number))).read? readItems?) :=
    yields_read download state number
  have hperforms : Performs download.pageOf download.HasItems [(state, number)]
      (download.read state number) := hread.performs Iff.rfl
  obtain ⟨made, _, hmade, _⟩ := hperforms.exists_made
  exact ⟨made, hmade⟩

/-- By induction on the bound: each page has items before the next one is asked for. -/
theorem exists_proceeds_pagesFrom (download : Download) (state : String) (bound start : Nat) :
    ∃ made, Proceeds download.pageOf download.HasItems made
      (download.pagesFrom state bound start) := by
  induction bound generalizing start with
  | zero => exact ⟨[], proceeds_of_requests_eq_nil rfl⟩
  | succ bound ih =>
    rw [pagesFrom_succ]
    apply exists_proceeds_bind (exists_proceeds_read download state start)
    intro batch _
    by_cases hlast : batch.length < pageSize
    · rw [if_pos hlast]
      exact ⟨[], proceeds_of_requests_eq_nil rfl⟩
    · rw [if_neg hlast]
      apply exists_proceeds_bind (ih (start + 1))
      intro rest _
      exact ⟨[], proceeds_of_requests_eq_nil rfl⟩

end Stopping

section Fetching

/-- The issues made of listed items. Pull requests are left out, and so are issues without a
milestone if the settings say so. -/
def issuesOf (download : Download) (listed : List GitHubItem) : List Issue :=
  (listed.filter fun item => item.isPullRequest = false ∧
    (download.settings.onlyMilestoneIssues = true → item.milestone ≠ none)).map
      (GitHubItem.toIssue download.repository.issuesUrl)

theorem isWanted_eq (onlyMilestoneIssues : Bool) (item : GitHubItem) :
    item.isWanted onlyMilestoneIssues = decide (item.isPullRequest = false ∧
      (onlyMilestoneIssues = true → item.milestone ≠ none)) := by
  rw [Bool.eq_iff_iff, decide_eq_true_iff, GitHubItem.isWanted]
  cases onlyMilestoneIssues <;> simp [← Option.isSome_iff_ne_none]

def report (download : Download) (listed : List GitHubItem) : Journaled (List Issue) := do
  let wanted := listed.filter (GitHubItem.isWanted download.settings.onlyMilestoneIssues)
  let issues := wanted.map (GitHubItem.toIssue download.repository.issuesUrl)
  Journaled.log .info s!"Downloaded {issues.length} issues from GitHub."
  return issues

theorem yields_report (download : Download) (listed : List GitHubItem) :
    (download.report listed).Yields [] (some (download.issuesOf listed)) := by
  have hwanted : GitHubItem.isWanted download.settings.onlyMilestoneIssues = fun item =>
      decide (item.isPullRequest = false ∧
        (download.settings.onlyMilestoneIssues = true → item.milestone ≠ none)) :=
    funext (isWanted_eq _)
  rw [report, issuesOf, ← hwanted]
  exact (yields_pure _).log_bind _ _

theorem fetch_eq (download : Download) : download.fetch =
    Journaled.log .info ("Downloading issues from GitHub: " ++ download.repository.owner ++ "/" ++
      download.repository.name) >>= fun _ =>
    download.inState "closed" >>= fun closed =>
    download.openItems >>= fun opened => download.report (closed ++ opened) :=
  rfl

def ifOpen {α : Type} (download : Download) (values : List α) : List α :=
  if download.settings.includeOpenIssues = true then values else []

theorem yields_openItems {opened : List GitHubItem}
    (h : download.settings.includeOpenIssues = true → download.IsServed "open" opened) :
    download.openItems.Yields (download.ifOpen (download.pageRequests "open" 1 opened.length))
      (some (download.ifOpen opened)) := by
  unfold openItems ifOpen
  by_cases hopen : download.settings.includeOpenIssues = true
  · rw [if_pos hopen, if_pos hopen, if_pos hopen]
    exact yields_inState (h hopen)
  · rw [if_neg hopen, if_neg hopen, if_neg hopen]
    exact yields_pure []

theorem yields_fetch {closed opened : List GitHubItem} (hclosed : download.IsServed "closed" closed)
    (hopened : download.settings.includeOpenIssues = true → download.IsServed "open" opened) :
    download.fetch.Yields
      (download.pageRequests "closed" 1 closed.length ++
        download.ifOpen (download.pageRequests "open" 1 opened.length))
      (some (download.issuesOf (closed ++ download.ifOpen opened))) := by
  rw [fetch_eq]
  apply Yields.log_bind
  apply (yields_inState hclosed).bind_of_some
  rw [← List.append_nil (download.ifOpen (download.pageRequests "open" 1 opened.length))]
  exact (yields_openItems hopened).bind_of_some (yields_report download _)

/-- A download stops at the first page without items. -/
theorem exists_proceeds_fetch (download : Download) :
    ∃ made, Proceeds download.pageOf download.HasItems made download.fetch := by
  rw [fetch_eq]
  apply exists_proceeds_bind ⟨[], proceeds_of_requests_eq_nil rfl⟩
  intro _ _
  apply exists_proceeds_bind (exists_proceeds_pagesFrom download "closed" _ 1)
  intro closed _
  have hopened : ∃ made, Proceeds download.pageOf download.HasItems made download.openItems := by
    unfold openItems
    split
    · exact exists_proceeds_pagesFrom download "open" _ 1
    · exact ⟨[], proceeds_of_requests_eq_nil rfl⟩
  apply exists_proceeds_bind hopened
  intro opened _
  exact ⟨[], proceeds_of_requests_eq_nil (yields_report download _).requests_eq⟩

/-- What a download does. If the server has a list of closed and a list of open issues on its pages,
then all issues of the lists that are wanted come in order, for one request for each full page and
one more. From any server, a page without items ends the download and makes it fail. -/
structure IsPaged (download : Download) (run : Journaled (List Issue)) : Prop where
  complete : ∀ closed opened, download.IsServed "closed" closed →
    (download.settings.includeOpenIssues = true → download.IsServed "open" opened) →
    run.outcome = .ok (download.issuesOf (closed ++ download.ifOpen opened)) ∧
      run.requests = download.pageRequests "closed" 1 closed.length ++
        download.ifOpen (download.pageRequests "open" 1 opened.length)
  stops : ∀ before request after, run.requests = before ++ request :: after →
    (download.server.replyTo request).read? readItems? = none →
      after = [] ∧ ∃ failure, run.outcome = .error failure

/-- Lists of any length come in full, and a page without items is the last one that is asked for. -/
theorem fetch_isPaged (download : Download) : download.IsPaged download.fetch := by
  constructor
  · intro closed opened hclosed hopened
    have hfetch := yields_fetch hclosed hopened
    exact ⟨(hfetch.ok_iff _).mpr rfl, hfetch.requests_eq⟩
  · intro before request after heq hnone
    obtain ⟨made, hmade⟩ := exists_proceeds_fetch download
    have hstop : ¬(after ≠ [] ∨ ∃ value, download.fetch.outcome = .ok value) := by
      intro hgoes
      obtain ⟨step, rfl, hitems⟩ := hmade.exists_passed heq hgoes
      have hsome : ((download.server.replyTo (download.pageOf step)).read? readItems?).isSome :=
        hitems
      rw [hnone] at hsome
      contradiction
    rw [not_or, not_not] at hstop
    refine ⟨hstop.1, ?_⟩
    cases houtcome : download.fetch.outcome with
    | error failure => exact ⟨failure, rfl⟩
    | ok value => exact absurd ⟨value, houtcome⟩ hstop.2

end Fetching

section Sample

def sampleText (more : String) (number : Nat) : List Char :=
  "\x7b\"title\":\"\",\"state\":\"\"".toList ++ more.toList ++ ",\"number\":".toList ++
    Nat.toDigits 10 number ++ ['\x7d']

def sampleItem (number : Nat) : GitHubItem :=
  ⟨number, "", "", [], none, none, none, none, none, false⟩

def sampleBody (items : List (List Char)) : String :=
  String.ofList ('[' :: [','].intercalate items ++ [']'])

def sampleAddress (state : String) (number : Nat) : Method × String :=
  (.get, "https://api.github.com/repos/o/r/issues?state=" ++ state ++ "&per_page=100&page=" ++
    toString number)

def sampleNumbers : List Nat := List.range' 1 100

/-- What is on the pages: closed issues that fill one, another one and a pull request on the next
one, and an issue that is open. -/
def sampleBodies : List ((String × Nat) × String) :=
  [ (("closed", 1), sampleBody (sampleNumbers.map (sampleText ""))),
    (("closed", 2), sampleBody [sampleText "" 102, sampleText ",\"pull_request\":1" 103]),
    (("open", 1), sampleBody [sampleText "" 105]) ]

def sampleClosed : List GitHubItem :=
  sampleNumbers.map sampleItem ++ [sampleItem 102, { sampleItem 103 with isPullRequest := true }]

def sampleServer : Server where
  replies := sampleBodies.map fun page =>
    (sampleAddress page.1.1 page.1.2, .answered ⟨200, page.2⟩)
  isReachable := true

def sampleDownload : Download where
  server := sampleServer
  repository := .onHost "https" "github.com" "o" "r"
  credentials := .anonymous
  settings := { GitHubSettings.default with onlyMilestoneIssues := false }

theorem url_page_sample : ∀ state ∈ ["closed", "open"], ∀ number ∈ [1, 2],
    (sampleDownload.page state number).url = (sampleAddress state number).2 := by
  decide +kernel

/-- The pages have distinct addresses, so each of them is found. -/
theorem itemsOn?_sample {state body : String} {number : Nat} (hstate : state ∈ ["closed", "open"])
    (hnumber : number ∈ [1, 2]) (h : ((state, number), body) ∈ sampleBodies) :
    sampleDownload.itemsOn? state number = readItems? body := by
  have hdistinct : (sampleServer.replies.map Prod.fst).Nodup := by decide +kernel
  have hmem : (sampleAddress state number, Reply.answered ⟨200, body⟩) ∈ sampleServer.replies :=
    List.mem_map.mpr ⟨((state, number), body), h, rfl⟩
  have hurl := url_page_sample state hstate number hnumber
  have hreply : sampleServer.replyTo (sampleDownload.page state number) =
      .answered ⟨200, body⟩ := by
    have haddress : ((sampleDownload.page state number).method,
        (sampleDownload.page state number).url) = sampleAddress state number :=
      Prod.ext rfl hurl
    have hreachable : sampleServer.isReachable = true := rfl
    rw [Server.replyTo, if_pos hreachable, haddress, (lookup_eq_some_iff_mem hdistinct).mpr hmem,
      Option.getD_some]
  have hserver : sampleDownload.server = sampleServer := rfl
  have hsuccess : (⟨200, body⟩ : Answer).isSuccess = true := rfl
  rw [itemsOn?, hserver, hreply, Reply.read?, Reply.answer?, Option.bind_some, if_pos hsuccess]

theorem isServed_closed_sample : sampleDownload.IsServed "closed" sampleClosed := by
  intro number hnumber
  have hlast : number ≤ 1 := hnumber
  obtain rfl | rfl : number = 0 ∨ number = 1 := by omega
  · rw [itemsOn?_sample (by simp) (by simp) (List.mem_cons_self ..), readItems?, Json.parse?,
      sampleBody, String.toList_ofList]
    decide +kernel
  · rw [itemsOn?_sample (by simp) (by simp) (List.mem_cons_of_mem _ (List.mem_cons_self ..)),
      readItems?, Json.parse?, sampleBody, String.toList_ofList]
    decide +kernel

theorem isServed_open_sample : sampleDownload.IsServed "open" [sampleItem 105] := by
  intro number hnumber
  obtain rfl : number = 0 := Nat.le_zero.mp hnumber
  rw [itemsOn?_sample (by simp) (by simp)
    (List.mem_cons_of_mem _ (List.mem_cons_of_mem _ (List.mem_cons_self ..))), readItems?,
    Json.parse?, sampleBody, String.toList_ofList]
  decide +kernel

/-- Two requests for the closed issues, since the first page is full, and one for the open ones. -/
theorem fetch_isPaged_sample :
    sampleDownload.fetch.outcome = .ok ((sampleNumbers.map sampleItem ++
        [sampleItem 102, sampleItem 105]).map
          (GitHubItem.toIssue "https://github.com/o/r/issues")) ∧
      sampleDownload.fetch.requests =
        [sampleDownload.page "closed" 1, sampleDownload.page "closed" 2,
          sampleDownload.page "open" 1] :=
  (fetch_isPaged sampleDownload).complete _ _ isServed_closed_sample fun _ => isServed_open_sample

end Sample

end Download

end ReleaseNotes.GitHub
