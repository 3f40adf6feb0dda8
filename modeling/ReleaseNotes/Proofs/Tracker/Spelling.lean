import ReleaseNotes.Proofs.Text.Patterns
import ReleaseNotes.Proofs.Tracker.Addresses

/-!
The texts that are addresses of projects in Jira. A step of the address of a project can also occur
in the address of the server, but the key has no slash, so there is one way only to take a text
apart. A pattern for addresses hence finds the same parts, whatever its pieces prefer.
-/

namespace ReleaseNotes.JiraAddress

open Text

variable {text url : String} {address : JiraAddress}

/-- A text is made of the address of a server, the step to its projects, the key of a project and a
slash or none. -/
structure IsSpelling (address : JiraAddress) (text : String) : Prop where
  text_eq : ∃ slash ∈ ["", "/"], text = address.base ++ "/browse/" ++ address.project ++ slash
  base_eq : ∃ scheme ∈ ["http://", "https://"], ∃ host, host ≠ "" ∧ address.base = scheme ++ host
  base_unblank : ∀ c ∈ address.base.toList, isBlank c = false
  project_ne_empty : address.project ≠ ""
  project_plain : ∀ c ∈ address.project.toList, c ≠ '/' ∧ isBlank c = false

section Parts

theorem afterScheme?_eq_some_iff {chars host : List Char} :
    afterScheme? chars = some host ↔
      chars = "http://".toList ++ host ∨ chars = "https://".toList ++ host := by
  rw [afterScheme?, Option.or_eq_some_iff, afterStart?_eq_some_iff, afterStart?_eq_some_iff]
  refine or_congr_right (and_iff_right_of_imp ?_)
  rintro rfl
  rfl

theorem exists_afterScheme?_iff {base : String} :
    (∃ host, host ≠ [] ∧ afterScheme? base.toList = some host) ↔
      ∃ scheme ∈ ["http://", "https://"], ∃ host, host ≠ "" ∧ base = scheme ++ host := by
  simp only [afterScheme?_eq_some_iff]
  constructor
  · rintro ⟨host, hne, hbase⟩
    have hhost : String.ofList host ≠ "" := by simpa using hne
    rcases hbase with hbase | hbase
    · exact ⟨_, List.mem_cons_self, _, hhost, by rw [← String.toList_inj, hbase]; simp⟩
    · refine ⟨_, List.mem_cons_of_mem _ List.mem_cons_self, _, hhost, ?_⟩
      rw [← String.toList_inj, hbase]
      simp
  · rintro ⟨scheme, hscheme, host, hne, rfl⟩
    refine ⟨host.toList, by simpa using hne, ?_⟩
    rw [String.toList_append]
    rcases List.mem_pair.mp hscheme with rfl | rfl
    · exact Or.inl rfl
    · exact Or.inr rfl

theorem exists_slash_iff {base key : String} :
    (∃ slash, (slash = [] ∨ slash = ['/']) ∧
        text.toList = base.toList ++ "/browse".toList ++ '/' :: key.toList ++ slash) ↔
      ∃ slash ∈ ["", "/"], text = base ++ "/browse/" ++ key ++ slash := by
  constructor
  · rintro ⟨slash, hslash, htext⟩
    refine ⟨String.ofList slash, ?_, ?_⟩
    · rcases hslash with rfl | rfl
      · exact List.mem_cons_self
      · exact List.mem_cons_of_mem _ List.mem_cons_self
    · rw [← String.toList_inj, htext]
      simp
  · rintro ⟨slash, hslash, rfl⟩
    refine ⟨slash.toList, ?_, by simp⟩
    rcases List.mem_pair.mp hslash with rfl | rfl
    · exact Or.inl rfl
    · exact Or.inr rfl

theorem IsSpelling.isBlank_eq_false (h : address.IsSpelling text) :
    ∀ c ∈ text.toList, isBlank c = false := by
  obtain ⟨slash, hslash, rfl⟩ := h.text_eq
  intro c hc
  simp only [String.toList_append, List.mem_append] at hc
  rcases hc with ((hbase | hbrowse) | hproject) | hend
  · exact h.base_unblank c hbase
  · exact any_isBlank_eq_false_iff.mp (by decide) c hbrowse
  · exact (h.project_plain c hproject).2
  · have hslashes : ∀ slash ∈ ["", "/"], slash.toList.any isBlank = false := by decide
    exact any_isBlank_eq_false_iff.mp (hslashes slash hslash) c hend

/-- An address is read from the texts that spell it, and from no others. -/
theorem parse_eq_ok_iff_isSpelling : parse url = .ok address ↔ address.IsSpelling (trim url) := by
  rw [parse_eq_ok_iff, parts?_eq_some_iff, ← toList_trim, exists_slash_iff, exists_afterScheme?_iff]
  constructor
  · rintro ⟨hblank, ⟨slash, hslash, htext⟩, hbase, hproject, hkey⟩
    rw [htext] at hblank
    refine ⟨⟨slash, hslash, htext⟩, hbase, fun c hc => hblank c ?_, by simpa using hproject,
      fun c hc => ⟨?_, hblank c ?_⟩⟩
    · simp [hc]
    · rintro rfl
      exact hkey hc
    · simp [hc]
  · intro h
    refine ⟨h.isBlank_eq_false, h.text_eq, h.base_eq, by simpa using h.project_ne_empty, ?_⟩
    exact fun hmem => (h.project_plain '/' hmem).1 rfl

end Parts

section Reading

def pattern : List Piece :=
  [ .exactly "http".toList, .perhaps ['s'], .exactly "://".toList, .few fun c => !isBlank c,
    .exactly "/browse/".toList, .many fun c => c != '/' && !isBlank c, .perhaps ['/'] ]

def ofParts : List (List Char) → Option JiraAddress
  | [http, s, colon, host, _, key, _] =>
    some ⟨String.ofList (http ++ s ++ colon ++ host), String.ofList key⟩
  | _ => none

theorem accepts_pattern_iff {parts : List (List Char)} :
    List.Forall₂ Piece.Accepts pattern parts ↔ ∃ s host key slash,
      (s = ['s'] ∨ s = []) ∧ (host ≠ [] ∧ ∀ c ∈ host, (!isBlank c) = true) ∧
        (key ≠ [] ∧ ∀ c ∈ key, (c != '/' && !isBlank c) = true) ∧ (slash = ['/'] ∨ slash = []) ∧
        parts = ["http".toList, s, "://".toList, host, "/browse/".toList, key, slash] := by
  simp only [pattern, List.forall₂_cons_left_iff, List.forall₂_nil_left_iff, Piece.Accepts]
  constructor
  · rintro ⟨_, _, rfl, ⟨s, _, hs, ⟨_, _, rfl, ⟨host, _, hhost, ⟨_, _, rfl, ⟨key, _, hkey,
      ⟨slash, _, hslash, rfl, rfl⟩, rfl⟩, rfl⟩, rfl⟩, rfl⟩, rfl⟩, rfl⟩
    exact ⟨s, host, key, slash, hs, hhost, hkey, hslash, rfl⟩
  · rintro ⟨s, host, key, slash, hs, hhost, hkey, hslash, rfl⟩
    exact ⟨_, _, rfl, ⟨s, _, hs, ⟨_, _, rfl, ⟨host, _, hhost, ⟨_, _, rfl, ⟨key, _, hkey,
      ⟨slash, _, hslash, rfl, rfl⟩, rfl⟩, rfl⟩, rfl⟩, rfl⟩, rfl⟩, rfl⟩

/-- Every reading of a text by the pattern spells the address that it finds. -/
theorem exists_isSpelling_of_mem_readings {parts : List (List Char)}
    (h : parts ∈ readings pattern text.toList) :
    ∃ address, ofParts parts = some address ∧ address.IsSpelling text := by
  obtain ⟨htext, haccepts⟩ := mem_readings_iff.mp h
  obtain ⟨s, host, key, slash, hs, ⟨hne, hhost⟩, ⟨hkeyNe, hkey⟩, hslash, rfl⟩ :=
    accepts_pattern_iff.mp haccepts
  refine ⟨_, rfl, ?_, ?_, ?_, by simpa using hkeyNe, ?_⟩
  · refine ⟨String.ofList slash, ?_, ?_⟩
    · rcases hslash with rfl | rfl
      · exact List.mem_cons_of_mem _ List.mem_cons_self
      · exact List.mem_cons_self
    · rw [← String.toList_inj, htext]
      simp
  · refine ⟨String.ofList ("http".toList ++ s ++ "://".toList), ?_, String.ofList host,
      by simpa using hne, String.ofList_append⟩
    rcases hs with rfl | rfl
    · exact List.mem_cons_of_mem _ List.mem_cons_self
    · exact List.mem_cons_self
  · intro c hc
    simp only [String.toList_ofList, List.mem_append] at hc
    rcases hc with ((hhttp | hletter) | hcolon) | hrest
    · exact any_isBlank_eq_false_iff.mp (by decide) c hhttp
    · rcases hs with rfl | rfl
      · obtain rfl := List.mem_singleton.mp hletter
        rfl
      · contradiction
    · exact any_isBlank_eq_false_iff.mp (by decide) c hcolon
    · simpa using hhost c hrest
  · intro c hc
    rw [String.toList_ofList] at hc
    simpa using hkey c hc

/-- Every spelling of an address is read as it by the pattern. -/
theorem exists_mem_readings (h : address.IsSpelling text) :
    ∃ parts ∈ readings pattern text.toList, ofParts parts = some address := by
  obtain ⟨slash, hslash, htext⟩ := h.text_eq
  obtain ⟨scheme, hscheme, host, hne, hbase⟩ := h.base_eq
  obtain ⟨s, hs, hsplit⟩ : ∃ s, (s = ['s'] ∨ s = []) ∧
      scheme.toList = "http".toList ++ s ++ "://".toList := by
    rcases List.mem_pair.mp hscheme with rfl | rfl
    · exact ⟨[], Or.inr rfl, rfl⟩
    · exact ⟨['s'], Or.inl rfl, rfl⟩
  have hchars : address.base.toList = "http".toList ++ s ++ "://".toList ++ host.toList := by
    rw [hbase, String.toList_append, hsplit]
  have hend : slash.toList = ['/'] ∨ slash.toList = [] := by
    rcases List.mem_pair.mp hslash with rfl | rfl
    · exact Or.inr rfl
    · exact Or.inl rfl
  have hhost : ∀ c ∈ host.toList, (!isBlank c) = true := by
    intro c hc
    rw [h.base_unblank c (by rw [hchars]; exact List.mem_append_right _ hc)]
    rfl
  have hkey : ∀ c ∈ address.project.toList, (c != '/' && !isBlank c) = true := by
    intro c hc
    simpa using h.project_plain c hc
  refine ⟨_, mem_readings_iff.mpr ⟨?_, accepts_pattern_iff.mpr ⟨s, host.toList,
    address.project.toList, slash.toList, hs, ⟨by simpa using hne, hhost⟩,
    ⟨by simpa using h.project_ne_empty, hkey⟩, hend, rfl⟩⟩, ?_⟩
  · rw [htext]
    simp [hchars]
  · rw [ofParts, ← hchars, String.ofList_toList, String.ofList_toList]

/-- Reading an address has one error only, with the text as it was given. -/
theorem eq_of_parse_eq_error {cause : Cause} (h : parse url = .error cause) :
    cause = .invalidJiraUrl url := by
  unfold parse at h
  split at h
  · contradiction
  · exact (Except.error.inj h).symm

/-- All readings by the pattern find the address that is read, so the first one does, whatever the
pieces prefer. -/
theorem ofParts_of_mem_readings {parts : List (List Char)}
    (h : parts ∈ readings pattern (trim url).toList) : ofParts parts = (parse url).toOption := by
  obtain ⟨address, hfound, hspelling⟩ := exists_isSpelling_of_mem_readings h
  rw [hfound, parse_eq_ok_iff_isSpelling.mpr hspelling]
  rfl

theorem parse_eq_head? (url : String) :
    parse url = ((readings pattern (trim url).toList).head?.bind ofParts).elim
      (.error (.invalidJiraUrl url)) .ok := by
  cases hreadings : (readings pattern (trim url).toList).head? with
  | some parts =>
    have hparts := ofParts_of_mem_readings (List.mem_of_head? hreadings)
    obtain ⟨address, hfound, _⟩ := exists_isSpelling_of_mem_readings (List.mem_of_head? hreadings)
    rw [Option.bind_some, hfound]
    cases hparse : parse url with
    | ok other =>
      rw [hparse, hfound] at hparts
      exact congrArg Except.ok (Option.some.inj hparts).symm
    | error cause =>
      rw [hparse, hfound] at hparts
      exact absurd hparts (Option.some_ne_none address)
  | none =>
    cases hparse : parse url with
    | ok address =>
      obtain ⟨parts, hparts, _⟩ := exists_mem_readings (parse_eq_ok_iff_isSpelling.mp hparse)
      rw [List.head?_eq_none_iff.mp hreadings] at hparts
      exact absurd hparts List.not_mem_nil
    | error cause => exact congrArg Except.error (eq_of_parse_eq_error hparse)

end Reading

/-- An address is read from a text exactly if the trimmed text spells it, and then the text spells
no other one. All readings by the pattern find this address, and the first one is what is read. -/
theorem parse_isRecognition (url : String) :
    (∀ address, parse url = .ok address ↔ address.IsSpelling (trim url)) ∧
    ((∃ address, parse url = .ok address) ↔
      ∃! address : JiraAddress, address.IsSpelling (trim url)) ∧
    (∀ parts ∈ readings pattern (trim url).toList, ofParts parts = (parse url).toOption) ∧
    parse url = ((readings pattern (trim url).toList).head?.bind ofParts).elim
      (.error (.invalidJiraUrl url)) .ok := by
  refine ⟨fun _ => parse_eq_ok_iff_isSpelling, ⟨?_, ?_⟩, fun _ => ofParts_of_mem_readings,
    parse_eq_head? url⟩
  · rintro ⟨address, hparse⟩
    refine ⟨address, parse_eq_ok_iff_isSpelling.mp hparse, fun other hother => ?_⟩
    exact Except.ok.inj ((parse_eq_ok_iff_isSpelling.mpr hother).symm.trans hparse)
  · rintro ⟨address, hspelling, _⟩
    exact ⟨address, parse_eq_ok_iff_isSpelling.mpr hspelling⟩

/-- The step to the projects of a server occurs twice. -/
theorem parse_isRecognition_sample :
    let url := " http://localhost/browse/old/browse/EX/"
    let parts := ["http".toList, [], "://".toList, "localhost/browse/old".toList,
      "/browse/".toList, "EX".toList, ['/']]
    parts ∈ readings pattern (trim url).toList ∧ ofParts parts = (parse url).toOption ∧
      (⟨"http://localhost/browse/old", "EX"⟩ : JiraAddress).IsSpelling (trim url) := by
  intro url parts
  have hparts : parts ∈ readings pattern (trim url).toList := by decide +kernel
  obtain ⟨hspelling, _, hreading, _⟩ := parse_isRecognition url
  exact ⟨hparts, hreading parts hparts, (hspelling _).mp (by decide +kernel)⟩

end ReleaseNotes.JiraAddress
