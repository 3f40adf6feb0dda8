import ReleaseNotes.Proofs.Text.Cutting
import ReleaseNotes.Proofs.Text.Lowering
import ReleaseNotes.Proofs.Tracker.Addresses
import ReleaseNotes.Proofs.Traversal
import ReleaseNotes.Report.Link
import ReleaseNotes.Tracker.GitHubData

/-!
Links of a report, compared with the links that issues come with. Some trackers have their issues
right below the address of the project without its last part. On GitHub they are below the list of
issues, so the links of a report lead to them only if a slash follows the address of the list. In
Jira they are beside the project, so the links lead to them only if no slash follows its address.
-/

namespace ReleaseNotes

open Text

namespace Linker

variable {configured : List (String × String)} {url system name : String}

def belowAddress : String := "%URL%/%ISSUE%"

section Filling

/-- The address is the text before the last slash, if it is not blank. -/
theorem shortened?_eq_some_iff {base : String} :
    shortened? url = some base ↔
      (∃ last : String, '/' ∉ last.toList ∧ url = base ++ "/" ++ last) ∧
        isBlankText base = false := by
  rw [shortened?, nonBlank?_eq_some_iff, Option.map_eq_some_iff]
  refine and_congr_left fun _ => ⟨?_, ?_⟩
  · rintro ⟨⟨before, after⟩, hsplit, rfl⟩
    obtain ⟨separator, hseparator, hurl, hafter⟩ := exists_of_splitLast? hsplit
    obtain rfl : separator = '/' := by simpa using hseparator
    refine ⟨String.ofList after, fun hmem => ?_, ?_⟩
    · rw [String.toList_ofList] at hmem
      simpa using hafter '/' hmem
    · rw [← String.toList_inj, hurl]
      simp
  · rintro ⟨last, hlast, rfl⟩
    have hchars : (base ++ "/" ++ last).toList = base.toList ++ '/' :: last.toList := by simp
    refine ⟨(base.toList, last.toList), ?_, String.ofList_toList⟩
    -- The slash before the rest is the last one, whatever the address itself has.
    rw [hchars]
    refine splitLast?_append ?_ base.toList (beq_eq_false_of_notMem hlast)
    exact beq_self_eq_true '/'

/-- Both tokens are filled in, whatever the issue and the address are. -/
theorem filled_belowAddress (issue base : String) :
    filled belowAddress issue (some base) = base ++ "/" ++ issue := by
  rw [← String.toList_inj]
  simp [filled, belowAddress, urlToken, issueToken, replaceFirst, afterStart?]

end Filling

section Choosing

theorem lookup_byLowercase_eq_none (h : ∀ entry ∈ configured, lowercase entry.1 ≠ name) :
    (byLowercase configured).lookup name = none := by
  rw [List.lookup_eq_none_iff]
  intro entry hentry
  obtain ⟨given, hgiven, rfl⟩ := List.mem_map.mp hentry
  have hne := h given (List.mem_reverse.mp hgiven)
  simpa using hne.symm

/-- If names differ in more than letter case, each template is found under its own name. -/
theorem lookup_byLowercase_eq_some_iff {entries : List (String × String)} {name template : String}
    (h : (entries.map fun entry => lowercase entry.1).Nodup) :
    (byLowercase entries).lookup name = some template ↔
      ∃ given, (given, template) ∈ entries ∧ lowercase given = name := by
  have hnames : (byLowercase entries).map Prod.fst =
      (entries.map fun entry => lowercase entry.1).reverse := by
    rw [byLowercase, List.map_map, List.map_reverse]
    rfl
  rw [lookup_eq_some_iff_mem (by rwa [hnames, List.nodup_reverse]), byLowercase, List.mem_map]
  constructor
  · rintro ⟨⟨given, _⟩, hmem, heq⟩
    obtain ⟨rfl, rfl⟩ := Prod.mk.inj heq
    exact ⟨given, List.mem_reverse.mp hmem, rfl⟩
  · rintro ⟨given, hmem, rfl⟩
    exact ⟨(given, template), List.mem_reverse.mpr hmem, rfl⟩

theorem nodup_usualTemplates : (usualTemplates.map fun entry => lowercase entry.1).Nodup := by
  decide

/-- An action without a tracker of its own has that of the project. -/
theorem effectiveSystem_new (hsystem : lowercase system = name)
    (hname : isBlankText name = false) :
    (new configured (some url) (some system)).effectiveSystem none = name := by
  have hgiven : nonBlank? (some system) = some system :=
    nonBlank?_eq_some_iff.mpr ⟨rfl, isBlankText_of_lowercase hsystem hname⟩
  have hnone : nonBlank? none = none := rfl
  rw [effectiveSystem, new, hnone, hgiven, ← hsystem]
  rfl

/-- The tracker is known if an action that names one names that of the project. -/
theorem effectiveSystem_of_own {actionSystem : Option String} (hsystem : lowercase system = name)
    (hname : isBlankText name = false)
    (hown : ∀ own, nonBlank? actionSystem = some own → lowercase own = name) :
    (new configured (some url) (some system)).effectiveSystem actionSystem = name := by
  cases hgiven : nonBlank? actionSystem with
  | none =>
    have hproject : (new configured (some url) (some system)).effectiveSystem none = name :=
      effectiveSystem_new hsystem hname
    rw [effectiveSystem, hgiven]
    exact hproject
  | some own =>
    rw [effectiveSystem, hgiven, Option.map_some, hown own hgiven]
    rfl

/-- The links of a tracker that has its issues right below its address, unless a template is
configured for it. -/
theorem link_of_effectiveSystem {projectSystem actionSystem : Option String}
    (heffective :
      (new configured (some url) projectSystem).effectiveSystem actionSystem = name)
    (hconfigured : ∀ entry ∈ configured, lowercase entry.1 ≠ name)
    (husual : (byLowercase usualTemplates).lookup name = some belowAddress) (issue : String) :
    (new configured (some url) projectSystem).link issue actionSystem =
      (shortened? url).map fun base => base ++ "/" ++ issue := by
  have hlookup : (new configured (some url) projectSystem).templates.lookup name =
      some belowAddress := by
    rw [new, List.lookup_append, lookup_byLowercase_eq_none hconfigured, Option.none_or, husual]
  have hneeded : occursIn urlToken.toList belowAddress.toList = true := by decide
  have hfilled : isBlankText belowAddress = false := by decide
  have husable : (new configured (some url) projectSystem).isUsable belowAddress =
      (shortened? url).isSome := by
    rw [isUsable, hneeded, hfilled]
    rfl
  rw [link, template?, heffective, hlookup, Option.filter_some, husable]
  cases hurl : shortened? url with
  | none => rfl
  | some base =>
    have hlinker : (new configured (some url) projectSystem).url = some base := hurl
    rw [hlinker]
    exact congrArg some (filled_belowAddress issue base)

/-- The links for an action that names no tracker. -/
theorem link_belowAddress (hsystem : lowercase system = name) (hname : isBlankText name = false)
    (hconfigured : ∀ entry ∈ configured, lowercase entry.1 ≠ name)
    (husual : (byLowercase usualTemplates).lookup name = some belowAddress) (issue : String) :
    (new configured (some url) (some system)).link issue none =
      (shortened? url).map fun base => base ++ "/" ++ issue :=
  link_of_effectiveSystem (effectiveSystem_new hsystem hname) hconfigured husual issue

end Choosing

section GitHub

variable {repository : GitHubRepository}

/-- The address before the last slash is that of the list of issues exactly if nothing but blanks
comes after the slash. -/
theorem shortened?_eq_issuesUrl_iff (h : GitHubRepository.parse url = .ok repository) :
    shortened? url = some repository.issuesUrl ↔
      ∃ blanks : String, isBlankText blanks = true ∧
        url = repository.issuesUrl ++ "/" ++ blanks := by
  rw [shortened?_eq_some_iff]
  constructor
  · rintro ⟨⟨last, hlast, hurl⟩, _⟩
    exact ⟨last, GitHubRepository.isBlankText_of_parse h hlast hurl, hurl⟩
  · rintro ⟨blanks, hblanks, hurl⟩
    refine ⟨⟨blanks, fun hmem => ?_, hurl⟩, GitHubRepository.isBlankText_issuesUrl h⟩
    have hslash : isBlank '/' = true := List.all_eq_true.mp hblanks '/' hmem
    contradiction

theorem lookup_gitHub : (byLowercase usualTemplates).lookup "github" = some belowAddress :=
  (lookup_byLowercase_eq_some_iff nodup_usualTemplates).mpr
    ⟨"GitHub", by decide, by decide⟩

/-- The report links an issue to the page that GitHub has for it exactly if a slash follows the
address of the list of issues in the address of the project, with nothing but blanks after it. -/
theorem link_eq_issue_link_iff (hrepository : GitHubRepository.parse url = .ok repository)
    (hsystem : lowercase system = "github")
    (hconfigured : ∀ entry ∈ configured, lowercase entry.1 ≠ "github") (item : GitHubItem) :
    (new configured (some url) (some system)).link (item.toIssue repository.issuesUrl).key none =
        (item.toIssue repository.issuesUrl).link ↔
      ∃ blanks : String, isBlankText blanks = true ∧
        url = repository.issuesUrl ++ "/" ++ blanks := by
  have hname : isBlankText "github" = false := by decide +kernel
  have hlink : (item.toIssue repository.issuesUrl).link =
      some (repository.issuesUrl ++ "/" ++ (item.toIssue repository.issuesUrl).key) := rfl
  rw [← shortened?_eq_issuesUrl_iff hrepository,
    link_belowAddress hsystem hname hconfigured lookup_gitHub, hlink, Option.map_eq_some_iff]
  constructor
  · rintro ⟨base, hbase, heq⟩
    rwa [(String.append_left_inj _).mp ((String.append_left_inj _).mp heq)] at hbase
  · intro hbase
    exact ⟨repository.issuesUrl, hbase, rfl⟩

def sampleItem : GitHubItem where
  number := 12
  title := "Crash on empty input"
  state := "closed"
  labels := []
  milestone := none
  assignee := none
  author := none
  created := none
  updated := none
  isPullRequest := false

def sampleRepository : GitHubRepository where
  apiUrl := "https://api.github.com"
  owner := "team"
  name := "tool"
  issuesUrl := "https://github.com/team/tool/issues"

theorem link_eq_issue_link_sample :
    GitHubRepository.parse "https://github.com/team/tool/issues/ " = .ok sampleRepository ∧
      (new [("Trac", " ")] (some "https://github.com/team/tool/issues/ ") (some "GITHUB")).link
        "12" none = some "https://github.com/team/tool/issues/12" := by
  have hrepository : GitHubRepository.parse "https://github.com/team/tool/issues/ " =
      .ok sampleRepository := by decide +kernel
  refine ⟨hrepository, ?_⟩
  exact (link_eq_issue_link_iff hrepository (by decide +kernel) (by decide +kernel)
    sampleItem).mpr ⟨" ", by decide +kernel, by decide +kernel⟩

/-- Without a slash at the end of the address a link misses the list of issues. -/
theorem link_ne_issue_link : ¬∀ (configured : List (String × String)) (url system : String)
    (repository : GitHubRepository) (item : GitHubItem),
    GitHubRepository.parse url = .ok repository → lowercase system = "github" →
      (∀ entry ∈ configured, lowercase entry.1 ≠ "github") →
      (new configured (some url) (some system)).link (item.toIssue repository.issuesUrl).key none =
        (item.toIssue repository.issuesUrl).link := by
  intro h
  have hlink := h [] "https://github.com/team/tool/issues" "GitHub" sampleRepository sampleItem
    (by decide +kernel) (by decide +kernel) (by decide +kernel)
  revert hlink
  decide +kernel

end GitHub

section Jira

open JiraAddress JiraData

variable {address : JiraAddress}

/-- The address before the last slash leads to the issues of the server exactly if nothing stands
before the address of the project and nothing but blanks comes after it. -/
theorem shortened?_eq_browse_iff (h : JiraAddress.parse url = .ok address) :
    shortened? url = some (address.base ++ "/browse") ↔
      ∃ blanks : String, isBlankText blanks = true ∧
        url = issueUrl address.base address.project ++ blanks := by
  obtain ⟨slash, hslash, htrim, hproject, hhead⟩ := exists_slash_of_parse h
  have hfirst : (address.base ++ "/browse").toList.head? = some 'h' := by
    obtain ⟨others, hbase⟩ := List.head?_eq_some_iff.mp hhead
    rw [String.toList_append, hbase]
    rfl
  rw [shortened?_eq_some_iff]
  constructor
  · rintro ⟨⟨last, hlast, hurl⟩, _⟩
    obtain ⟨blanks, hsplit, hblanks⟩ := exists_append_dropTrailing isBlank last.toList
    have hchars : url.toList = (address.base ++ "/browse").toList ++ '/' :: last.toList := by
      rw [hurl]
      simp
    have hstart : url.toList.head? = some 'h' := by
      rw [hchars, List.head?_append, hfirst]
      rfl
    have htrimmed : trimChars url.toList =
        (address.base ++ "/browse").toList ++ '/' :: dropTrailing isBlank last.toList := by
      rw [trimChars, dropBlank_of_head? hstart rfl, hchars, dropTrailing_append_cons rfl]
    have hkept : dropTrailing isBlank last.toList = address.project.toList ++ slash := by
      rw [htrim] at htrimmed
      simpa [issueUrl] using htrimmed.symm
    -- A slash at the end would be the last one.
    have hnone : slash = [] := by
      rcases hslash with hslash | hslash
      · exact hslash
      · refine absurd ?_ hlast
        rw [hsplit, hkept, hslash]
        simp
    refine ⟨String.ofList blanks, ?_, ?_⟩
    · rw [isBlankText, String.toList_ofList]
      exact List.all_eq_true.mpr hblanks
    · rw [← String.toList_inj, hchars, hsplit, hkept, hnone]
      simp [issueUrl]
  · rintro ⟨blanks, hblanks, hurl⟩
    refine ⟨⟨address.project ++ blanks, fun hmem => ?_, ?_⟩, ?_⟩
    · rw [String.toList_append, List.mem_append] at hmem
      rcases hmem with hmem | hmem
      · exact hproject hmem
      · have hslash : isBlank '/' = true := List.all_eq_true.mp hblanks '/' hmem
        contradiction
    · rw [← String.toList_inj, hurl]
      simp [issueUrl]
    · obtain ⟨others, hothers⟩ := List.head?_eq_some_iff.mp hfirst
      rw [isBlankText, hothers]
      rfl

theorem lookup_jira : (byLowercase usualTemplates).lookup "jira" = some belowAddress :=
  (lookup_byLowercase_eq_some_iff nodup_usualTemplates).mpr ⟨"JIRA", by decide, by decide⟩

/-- The report links an issue to the page that Jira has for it exactly if the address of the
project has neither blanks before it nor a slash at its end. -/
theorem link_eq_browse_iff {json : Json} {issue : Issue} {actionSystem : Option String}
    (haddress : JiraAddress.parse url = .ok address) (hsystem : lowercase system = "jira")
    (hown : ∀ own, nonBlank? actionSystem = some own → lowercase own = "jira")
    (hconfigured : ∀ entry ∈ configured, lowercase entry.1 ≠ "jira")
    (hissue : issue? address.base json = some issue) :
    (new configured (some url) (some system)).link issue.key actionSystem = issue.link ↔
      ∃ blanks : String, isBlankText blanks = true ∧
        url = issueUrl address.base address.project ++ blanks := by
  have hname : isBlankText "jira" = false := by decide +kernel
  have hpage : issueUrl address.base issue.key = address.base ++ "/browse" ++ "/" ++ issue.key := by
    rw [← String.toList_inj]
    simp [issueUrl]
  rw [← shortened?_eq_browse_iff haddress,
    link_of_effectiveSystem (effectiveSystem_of_own hsystem hname hown) hconfigured lookup_jira,
    link_of_issue? hissue, hpage, Option.map_eq_some_iff]
  constructor
  · rintro ⟨base, hbase, heq⟩
    rwa [(String.append_left_inj _).mp ((String.append_left_inj _).mp heq)] at hbase
  · intro hbase
    exact ⟨address.base ++ "/browse", hbase, rfl⟩

def sampleJson : Json :=
  .object
    [(some "id", .ofText "10001"), (some "key", .ofText "EX-12"), (some "fields", .object [])]

def sampleAddress : JiraAddress := ⟨"http://localhost/browse/old", "EX"⟩

theorem link_eq_browse_sample :
    JiraAddress.parse "http://localhost/browse/old/browse/EX " = .ok sampleAddress ∧
      (new [("Trac", " ")] (some "http://localhost/browse/old/browse/EX ") (some "JIRA")).link
        "EX-12" (some " ") = some "http://localhost/browse/old/browse/EX-12" := by
  have haddress : JiraAddress.parse "http://localhost/browse/old/browse/EX " =
      .ok sampleAddress := by decide +kernel
  have hissue : issue? sampleAddress.base sampleJson =
      some { Issue.ofKey "EX-12" "" with
        id := "10001"
        link := some "http://localhost/browse/old/browse/EX-12" } := by decide +kernel
  have hown : ∀ own, nonBlank? (some " ") = some own → lowercase own = "jira" := by
    have hblank : nonBlank? (some " ") = none := by decide +kernel
    rw [hblank]
    exact nofun
  refine ⟨haddress, ?_⟩
  exact (link_eq_browse_iff haddress (by decide +kernel) hown (by decide +kernel) hissue).mpr
    ⟨" ", by decide +kernel, by decide +kernel⟩

/-- With a slash at the end of the address a link keeps the key of the project. -/
theorem link_ne_browse : ¬∀ (configured : List (String × String)) (url system : String)
    (address : JiraAddress) (json : Json) (issue : Issue),
    JiraAddress.parse url = .ok address → lowercase system = "jira" →
      (∀ entry ∈ configured, lowercase entry.1 ≠ "jira") →
      issue? address.base json = some issue → '%' ∉ issue.key.toList →
      (new configured (some url) (some system)).link issue.key none = issue.link := by
  intro h
  have hlink := h [] "https://jira.example.org/browse/EX/" "JIRA" ⟨"https://jira.example.org", "EX"⟩
    sampleJson
    { Issue.ofKey "EX-12" "" with
      id := "10001"
      link := some "https://jira.example.org/browse/EX-12" }
    (by decide +kernel) (by decide +kernel) (by decide +kernel) (by decide +kernel)
    (by decide +kernel)
  revert hlink
  decide +kernel

end Jira

end Linker

end ReleaseNotes
