import ReleaseNotes.Proofs.Text.Cutting
import ReleaseNotes.Proofs.Text.Trimming
import ReleaseNotes.Tracker.GitHubRepository
import ReleaseNotes.Tracker.JiraData

/-!
The addresses of repositories and of projects that are accepted. The address of the list of issues
of a repository is made of the parts of the given one, without the ending for cloning. The address
of a project in Jira is the given one without blanks around it, up to a slash at its end.
-/

namespace ReleaseNotes

open Text

namespace GitHubRepository

variable {url : String} {repository : GitHubRepository}

theorem bareName_isPrefix (segment : List Char) : bareName segment <+: segment := by
  unfold bareName
  split
  · rename_i c rest h
    have hsegment := congrArg List.reverse (afterStart?_eq_some_iff.mp h)
    rw [List.reverse_reverse, List.reverse_append] at hsegment
    rw [hsegment]
    exact List.prefix_append _ _
  · exact List.prefix_rfl

/-- The parts between the slashes of an accepted address, and those of the address of the list of
issues. -/
theorem exists_parts_of_parse (h : parse url = .ok repository) :
    ∃ scheme host owner segment rest,
      (trimChars url.toList).splitOn '/' = scheme :: [] :: host :: owner :: segment :: rest ∧
      isEnd rest = true ∧ scheme.head? = some 'h' ∧
      repository.issuesUrl.toList = ['/'].intercalate
        [scheme, [], host, owner, bareName segment, "issues".toList] := by
  unfold parse at h
  split at h
  · rename_i found hfound
    obtain rfl := Except.ok.inj h
    unfold parts? at hfound
    split at hfound
    · contradiction
    · split at hfound
      · rename_i scheme host owner segment rest hsplit
        split at hfound
        · rename_i hparts
          obtain rfl := Option.some.inj hfound
          simp only [Bool.and_eq_true, Bool.or_eq_true, beq_iff_eq] at hparts
          obtain ⟨⟨⟨⟨hscheme, _⟩, _⟩, _⟩, hend⟩ := hparts
          refine ⟨scheme, host, owner, segment, rest, hsplit, hend, ?_, ?_⟩
          · rcases hscheme with rfl | rfl
            · rfl
            · rfl
          · rcases hscheme with rfl | rfl
            · simp [onHost, List.intercalate]
            · simp [onHost, List.intercalate]
        · contradiction
      · contradiction
  · contradiction

/-- The page of issues of a repository is never blank, so that links can be filled with it. -/
theorem isBlankText_issuesUrl (h : parse url = .ok repository) :
    isBlankText repository.issuesUrl = false := by
  obtain ⟨scheme, host, owner, segment, rest, _, _, hhead, hissues⟩ := exists_parts_of_parse h
  obtain ⟨others, rfl⟩ := List.head?_eq_some_iff.mp hhead
  rw [isBlankText, hissues]
  rfl

/-- If a slash follows the address of the list of issues in an accepted address, then nothing but
blanks follows the slash. -/
theorem isBlankText_of_parse {last : String} (h : parse url = .ok repository)
    (hlast : '/' ∉ last.toList) (hurl : url = repository.issuesUrl ++ "/" ++ last) :
    isBlankText last = true := by
  obtain ⟨scheme, host, owner, segment, rest, hsplit, hend, hhead, hissues⟩ :=
    exists_parts_of_parse h
  have hmem : ∀ part ∈ scheme :: [] :: host :: owner :: segment :: rest, '/' ∉ part := by
    intro part hpart
    rw [← hsplit] at hpart
    exact notMem_of_mem_splitOn hpart
  let kept := dropTrailing isBlank last.toList
  have htrim : trimChars url.toList = ['/'].intercalate
      [scheme, [], host, owner, bareName segment, "issues".toList, kept] := by
    have hchars : url.toList = repository.issuesUrl.toList ++ '/' :: last.toList := by
      rw [hurl]
      simp
    have hfirst : url.toList.head? = some 'h' := by
      obtain ⟨others, rfl⟩ := List.head?_eq_some_iff.mp hhead
      rw [hchars, hissues]
      rfl
    rw [trimChars, dropBlank_of_head? hfirst rfl, hchars, dropTrailing_append_cons rfl, hissues]
    simp [List.intercalate, kept]
  -- The address of the list has six parts, and what follows them in an accepted address is empty.
  have hparts : scheme :: [] :: host :: owner :: segment :: rest =
      [scheme, [], host, owner, bareName segment, "issues".toList, kept] := by
    rw [← hsplit, htrim]
    refine List.splitOn_intercalate '/' ?_ (List.cons_ne_nil _ _)
    simp only [List.forall_mem_cons] at hmem ⊢
    obtain ⟨hscheme, hnil, hhost, howner, hsegment, _⟩ := hmem
    exact ⟨hscheme, hnil, hhost, howner, fun h => hsegment ((bareName_isPrefix segment).subset h),
      by decide, fun h => hlast ((dropTrailing_isPrefix _ _).subset h), List.forall_mem_nil _⟩
  have hrest : rest = ["issues".toList, kept] := by
    simp only [List.cons.injEq] at hparts
    obtain ⟨_, _, _, _, _, hrest⟩ := hparts
    exact hrest
  have hkept : kept = [] := by
    rw [hrest] at hend
    simpa [isEnd] using hend
  exact List.all_eq_true.mpr (dropTrailing_eq_nil_iff.mp hkept)

end GitHubRepository

namespace JiraAddress

variable {url : String} {address : JiraAddress}

theorem exists_withoutSlash_append (chars : List Char) :
    ∃ slash, (slash = [] ∨ slash = ['/']) ∧ chars = withoutSlash chars ++ slash := by
  by_cases hlast : chars.getLast? = some '/'
  · refine ⟨['/'], Or.inr rfl, ?_⟩
    rw [withoutSlash, if_pos hlast]
    obtain ⟨before, rfl⟩ := List.getLast?_eq_some_iff.mp hlast
    rw [List.dropLast_concat]
  · exact ⟨[], Or.inl rfl, by rw [withoutSlash, if_neg hlast, List.append_nil]⟩

theorem beforeEnd?_eq_some_iff {ending chars before : List Char} :
    beforeEnd? ending chars = some before ↔ chars = before ++ ending := by
  rw [beforeEnd?, Option.map_eq_some_iff]
  constructor
  · rintro ⟨rest, hrest, rfl⟩
    have hchars := congrArg List.reverse (afterStart?_eq_some_iff.mp hrest)
    rwa [List.reverse_reverse, List.reverse_append, List.reverse_reverse] at hchars
  · rintro rfl
    refine ⟨before.reverse, afterStart?_eq_some_iff.mpr ?_, List.reverse_reverse before⟩
    exact List.reverse_append

theorem head?_of_afterScheme? {chars host : List Char} (h : afterScheme? chars = some host) :
    chars.head? = some 'h' := by
  rw [afterScheme?, Option.or_eq_some_iff, afterStart?_eq_some_iff, afterStart?_eq_some_iff] at h
  rcases h with rfl | ⟨_, rfl⟩
  · rfl
  · rfl

theorem withoutSlash_append {chars slash : List Char} (hchars : chars.getLast? ≠ some '/')
    (hslash : slash = [] ∨ slash = ['/']) : withoutSlash (chars ++ slash) = chars := by
  rcases hslash with rfl | rfl
  · rw [List.append_nil, withoutSlash, if_neg hchars]
  · rw [withoutSlash, if_pos List.getLast?_concat, List.dropLast_concat]

theorem any_isBlank_eq_false_iff {chars : List Char} :
    chars.any isBlank = false ↔ ∀ c ∈ chars, isBlank c = false := by
  simp

/-- An address has the parts that it is put together out of, with or without a slash at its end. -/
theorem parts?_eq_some_iff {chars base key : List Char} :
    parts? chars = some (base, key) ↔
      (∀ c ∈ chars, isBlank c = false) ∧
      (∃ slash, (slash = [] ∨ slash = ['/']) ∧
        chars = base ++ "/browse".toList ++ '/' :: key ++ slash) ∧
      (∃ host, host ≠ [] ∧ afterScheme? base = some host) ∧ key ≠ [] ∧ '/' ∉ key := by
  constructor
  · intro hparts
    unfold parts? at hparts
    split at hparts
    · contradiction
    · rename_i hchars
      simp only [Option.bind_eq_bind, Option.bind_eq_some_iff] at hparts
      obtain ⟨⟨before, after⟩, hsplit, found, hbefore, host, hhost, hfound⟩ := hparts
      split at hfound
      · contradiction
      · rename_i hne
        obtain ⟨rfl, rfl⟩ := Prod.mk.inj (Option.some.inj hfound)
        simp only [Bool.or_eq_true, decide_eq_true_eq, not_or] at hne
        obtain ⟨slash, hslash, hwhole⟩ := exists_withoutSlash_append chars
        obtain ⟨separator, hseparator, hcut, hkey⟩ := exists_of_splitLast? hsplit
        obtain rfl : separator = '/' := by simpa using hseparator
        have hbrowse : before = found ++ "/browse".toList := beforeEnd?_eq_some_iff.mp hbefore
        have hunblank := any_isBlank_eq_false_iff.mp (eq_false_of_ne_true hchars)
        refine ⟨hunblank, ⟨slash, hslash, ?_⟩, ⟨host, hne.2, hhost⟩, hne.1, fun hmem => ?_⟩
        · rw [← hbrowse, ← hcut, ← hwhole]
        · simpa using hkey '/' hmem
  · rintro ⟨hchars, ⟨slash, hslash, rfl⟩, ⟨host, hne, hhost⟩, hkey, hmem⟩
    have hlast : (base ++ "/browse".toList ++ '/' :: key).getLast? ≠ some '/' := by
      intro h
      rw [List.getLast?_append, List.getLast?_cons, List.getLast?_eq_some_getLast hkey,
        Option.getD_some, Option.some_or, Option.some.injEq] at h
      exact hmem (h ▸ List.getLast_mem hkey)
    have hcut : splitLast? (· == '/') (base ++ "/browse".toList ++ '/' :: key) =
        some (base ++ "/browse".toList, key) := by
      refine splitLast?_append ?_ _ (beq_eq_false_of_notMem hmem)
      exact beq_self_eq_true '/'
    have hbefore : beforeEnd? "/browse".toList (base ++ "/browse".toList) = some base :=
      beforeEnd?_eq_some_iff.mpr rfl
    have hfound : (key = [] || host = []) = false := by simp [hkey, hne]
    rw [parts?, if_neg (ne_true_of_eq_false (any_isBlank_eq_false_iff.mpr hchars)),
      withoutSlash_append hlast hslash]
    simp only [Option.bind_eq_bind, hcut, hbefore, hhost, Option.bind_some, hfound,
      Bool.false_eq_true, if_false]

theorem parse_eq_ok_iff : parse url = .ok address ↔
    parts? (trimChars url.toList) = some (address.base.toList, address.project.toList) := by
  unfold parse
  split
  · rename_i base key hparts
    rw [hparts, Except.ok.injEq, Option.some.injEq, Prod.mk.injEq]
    constructor
    · rintro rfl
      exact ⟨String.toList_ofList.symm, String.toList_ofList.symm⟩
    · rintro ⟨rfl, rfl⟩
      rw [String.ofList_toList, String.ofList_toList]
  · rename_i hparts
    rw [hparts]
    exact ⟨nofun, nofun⟩

/-- The parts of an accepted address, which can have a slash at its end. -/
theorem exists_slash_of_parse (h : parse url = .ok address) :
    ∃ slash, (slash = [] ∨ slash = ['/']) ∧
      trimChars url.toList = (issueUrl address.base address.project).toList ++ slash ∧
      '/' ∉ address.project.toList ∧ address.base.toList.head? = some 'h' := by
  obtain ⟨_, ⟨slash, hslash, hchars⟩, ⟨host, _, hhost⟩, _, hkey⟩ :=
    parts?_eq_some_iff.mp (parse_eq_ok_iff.mp h)
  refine ⟨slash, hslash, ?_, hkey, head?_of_afterScheme? hhost⟩
  rw [hchars]
  simp [issueUrl]

end JiraAddress

namespace JiraData

theorem exists_of_required? {α : Type} {record : Json.Record} {name : String}
    {read : Json → Option α} {value : α} (h : record.required? name read = some value) :
    ∃ json, read json = some value := by
  unfold Json.Record.required? at h
  split at h
  · exact ⟨_, h⟩
  · contradiction

/-- A computation that succeeds is one of its last step. -/
theorem of_bind_eq_some {α β : Type} {run : Option α} {next : α → Option β} {value : β}
    {holds : Prop} (h : ∀ found, next found = some value → holds) :
    run >>= next = some value → holds := by
  intro hvalue
  obtain ⟨found, _, hfound⟩ := Option.bind_eq_some_iff.mp hvalue
  exact h found hfound

theorem key_of_fields? {id key : String} {json : Json} {issue : Issue}
    (h : fields? id key json = some issue) : issue.key = key := by
  revert h
  unfold fields?
  -- Whatever the fields are, the issue that comes of them has the key.
  iterate 13 refine of_bind_eq_some fun _ => ?_
  intro h
  exact (congrArg Issue.key (Option.some.inj h)).symm

/-- An issue is linked to its page on the server. -/
theorem link_of_issue? {base : String} {json : Json} {issue : Issue}
    (h : issue? base json = some issue) :
    issue.link = some (JiraAddress.issueUrl base issue.key) := by
  simp only [issue?, Option.bind_eq_bind, Option.bind_eq_some_iff] at h
  obtain ⟨record, _, id, _, key, _, found, hfound, heq⟩ := h
  obtain rfl := Option.some.inj heq
  obtain ⟨fields, hfields⟩ := exists_of_required? hfound
  rw [key_of_fields? hfields]

end JiraData

end ReleaseNotes
