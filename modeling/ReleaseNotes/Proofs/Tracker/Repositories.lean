import ReleaseNotes.Proofs.Text.Patterns
import ReleaseNotes.Proofs.Tracker.Addresses

/-!
The texts that are addresses of repositories. Three things can follow the name of a repository or
not, and a name can look like any of them. All that is in doubt is whether the ending for cloning
belongs to a name, and it is never kept behind something else. A pattern in which the piece for the
name takes as little as possible finds the same.
-/

namespace ReleaseNotes.GitHubRepository

open Text

def IsPart (text : String) : Prop :=
  text ≠ "" ∧ ∀ c ∈ text.toList, c ≠ '/' ∧ isBlank c = false

instance (text : String) : Decidable (IsPart text) :=
  decidable_of_iff (text ≠ "" ∧ (text.toList.all fun c => c != '/' && !isBlank c) = true)
    (by simp [IsPart])

structure Place where
  scheme : String
  host : String
  owner : String
  name : String
  scheme_mem : scheme ∈ ["http", "https"]
  isPart_host : IsPart host
  isPart_owner : IsPart owner
  isPart_name : IsPart name

namespace Place

/-- The address of a repository up to its name. -/
def text (place : Place) : String :=
  place.scheme ++ "://" ++ place.host ++ "/" ++ place.owner ++ "/" ++ place.name

def repository (place : Place) : GitHubRepository :=
  onHost place.scheme place.host place.owner place.name

end Place

structure Spelling where
  place : Place
  clone : String
  issues : String
  slash : String
  clone_mem : clone ∈ ["", ".git"]
  issues_mem : issues ∈ ["", "/issues"]
  slash_mem : slash ∈ ["", "/"]

def IsCloneName (name : String) : Prop :=
  ∃ start, start ≠ "" ∧ name = start ++ ".git"

namespace Spelling

def text (spelling : Spelling) : String :=
  spelling.place.text ++ spelling.clone ++ spelling.issues ++ spelling.slash

/-- A name that is meant to keep the ending for cloning needs another one behind it. -/
def IsClear (spelling : Spelling) : Prop :=
  IsCloneName spelling.place.name → spelling.clone = ".git"

end Spelling

section Names

theorem bareName_append {name clone : List Char} (hname : name ≠ [])
    (hclone : clone = [] ∨ clone = cloneEnding)
    (hclear : ∀ start, start ≠ [] → name = start ++ cloneEnding → clone = cloneEnding) :
    bareName (name ++ clone) = name := by
  unfold bareName
  split
  · rename_i c rest hrest
    have hsegment := congrArg List.reverse (afterStart?_eq_some_iff.mp hrest)
    rw [List.reverse_reverse, List.reverse_append, List.reverse_reverse] at hsegment
    rcases hclone with rfl | rfl
    · rw [List.append_nil] at hsegment
      exact absurd (hclear _ (by simp) hsegment) (by decide +kernel)
    · exact (List.append_cancel_right hsegment).symm
  · rename_i hnone
    rcases hclone with rfl | rfl
    · exact List.append_nil name
    · obtain ⟨c, rest, hreverse⟩ := List.exists_cons_of_ne_nil (mt List.reverse_eq_nil_iff.mp hname)
      refine absurd (afterStart?_eq_some_iff.mpr ?_) (hnone c rest)
      rw [List.reverse_append, hreverse]

/-- A segment of an address is the name of the repository with or without the ending. -/
theorem exists_clone_of_bareName {segment : List Char} (hsegment : segment ≠ []) :
    ∃ clone ∈ ["", ".git"], segment = bareName segment ++ clone.toList ∧ bareName segment ≠ [] ∧
      ∀ start, start ≠ [] → bareName segment = start ++ cloneEnding → clone = ".git" := by
  unfold bareName
  split
  · rename_i c rest hrest
    have hchars := congrArg List.reverse (afterStart?_eq_some_iff.mp hrest)
    rw [List.reverse_reverse, List.reverse_append, List.reverse_reverse] at hchars
    exact ⟨".git", by simp, hchars, by simp, fun _ _ _ => rfl⟩
  · rename_i hnone
    refine ⟨"", by simp, by simp, hsegment, fun start hstart hname => ?_⟩
    obtain ⟨c, rest, hreverse⟩ := List.exists_cons_of_ne_nil (mt List.reverse_eq_nil_iff.mp hstart)
    refine absurd (afterStart?_eq_some_iff.mpr ?_) (hnone c rest)
    rw [hname, List.reverse_append, hreverse]

/-- What may follow a segment is the step to the list of issues, a slash, both or nothing. -/
theorem exists_ends_of_isEnd {rest : List (List Char)} (h : isEnd rest = true) :
    ∃ issues ∈ ["", "/issues"], ∃ slash ∈ ["", "/"], ∀ segment,
      ['/'].intercalate (segment :: rest) = segment ++ issues.toList ++ slash.toList := by
  simp only [isEnd, Bool.or_eq_true, beq_iff_eq] at h
  rcases h with ((rfl | rfl) | rfl) | rfl
  · exact ⟨"", by simp, "", by simp, by simp [List.intercalate]⟩
  · exact ⟨"", by simp, "/", by simp, by simp [List.intercalate]⟩
  · exact ⟨"/issues", by simp, "", by simp, by simp [List.intercalate]⟩
  · exact ⟨"/issues", by simp, "/", by simp, by simp [List.intercalate]⟩

theorem exists_isEnd {issues slash : String} (hissues : issues ∈ ["", "/issues"])
    (hslash : slash ∈ ["", "/"]) :
    ∃ rest, isEnd rest = true ∧ (∀ part ∈ rest, '/' ∉ part) ∧ ∀ segment,
      ['/'].intercalate (segment :: rest) = segment ++ issues.toList ++ slash.toList := by
  rcases List.mem_pair.mp hissues with rfl | rfl
  · rcases List.mem_pair.mp hslash with rfl | rfl
    · exact ⟨[], rfl, by simp, by simp [List.intercalate]⟩
    · exact ⟨[[]], rfl, by simp, by simp [List.intercalate]⟩
  · rcases List.mem_pair.mp hslash with rfl | rfl
    · exact ⟨["issues".toList], rfl, by simp, by simp [List.intercalate]⟩
    · exact ⟨["issues".toList, []], rfl, by simp, by simp [List.intercalate]⟩

end Names

section Reading

variable {url : String} {repository : GitHubRepository}

theorem isBlank_text (spelling : Spelling) : ∀ c ∈ spelling.text.toList, isBlank c = false := by
  have hschemes : ∀ scheme ∈ ["http", "https"], scheme.toList.any isBlank = false := by decide
  have hclones : ∀ clone ∈ ["", ".git"], clone.toList.any isBlank = false := by decide
  have hissues : ∀ issues ∈ ["", "/issues"], issues.toList.any isBlank = false := by decide
  have hslashes : ∀ slash ∈ ["", "/"], slash.toList.any isBlank = false := by decide
  have hscheme := hschemes _ spelling.place.scheme_mem
  have hclone := hclones _ spelling.clone_mem
  have hissue := hissues _ spelling.issues_mem
  have hslash := hslashes _ spelling.slash_mem
  have hpart {part : String} (h : IsPart part) : part.toList.any isBlank = false :=
    JiraAddress.any_isBlank_eq_false_iff.mpr fun c hc => (h.2 c hc).2
  have hmarks : "://".toList.any isBlank = false ∧ "/".toList.any isBlank = false := by decide
  apply JiraAddress.any_isBlank_eq_false_iff.mp
  simp only [Spelling.text, Place.text, String.toList_append, List.any_append, hscheme, hclone,
    hissue, hslash, hmarks, hpart spelling.place.isPart_host, hpart spelling.place.isPart_owner,
    hpart spelling.place.isPart_name, Bool.or_false]

/-- An address is made of parts with slashes between them. -/
theorem intercalate_parts (scheme host owner segment : List Char) (rest : List (List Char)) :
    ['/'].intercalate ((scheme ++ [':']) :: [] :: host :: owner :: segment :: rest) =
      scheme ++ "://".toList ++ host ++ "/".toList ++ owner ++ "/".toList ++
        ['/'].intercalate (segment :: rest) := by
  simp [List.intercalate]

theorem exists_splitOn_text (spelling : Spelling) :
    ∃ rest, isEnd rest = true ∧ spelling.text.toList.splitOn '/' =
      (spelling.place.scheme.toList ++ [':']) :: [] :: spelling.place.host.toList ::
        spelling.place.owner.toList :: (spelling.place.name.toList ++ spelling.clone.toList) ::
          rest := by
  obtain ⟨rest, hend, hparts, hrest⟩ := exists_isEnd spelling.issues_mem spelling.slash_mem
  refine ⟨rest, hend, ?_⟩
  have hschemes : ∀ scheme ∈ ["http", "https"], '/' ∉ scheme.toList ++ [':'] := by decide
  have hclones : ∀ clone ∈ ["", ".git"], '/' ∉ clone.toList := by decide
  have hpart {part : String} (h : IsPart part) : '/' ∉ part.toList :=
    fun hmem => (h.2 '/' hmem).1 rfl
  have hsegment : '/' ∉ spelling.place.name.toList ++ spelling.clone.toList := by
    rw [List.mem_append, not_or]
    exact ⟨hpart spelling.place.isPart_name, hclones _ spelling.clone_mem⟩
  have htext := intercalate_parts spelling.place.scheme.toList spelling.place.host.toList
    spelling.place.owner.toList (spelling.place.name.toList ++ spelling.clone.toList) rest
  have hwhole : spelling.text.toList = ['/'].intercalate
      ((spelling.place.scheme.toList ++ [':']) :: [] :: spelling.place.host.toList ::
        spelling.place.owner.toList :: (spelling.place.name.toList ++ spelling.clone.toList) ::
          rest) := by
    rw [htext, hrest]
    simp only [Spelling.text, Place.text, String.toList_append, List.append_assoc]
  rw [hwhole]
  refine List.splitOn_intercalate '/' ?_ (List.cons_ne_nil _ _)
  simp only [List.forall_mem_cons]
  exact ⟨hschemes _ spelling.place.scheme_mem, List.not_mem_nil, hpart spelling.place.isPart_host,
    hpart spelling.place.isPart_owner, hsegment, hparts⟩

/-- A repository is found at the addresses that are clear about the ending for cloning. -/
theorem parts?_text {spelling : Spelling} (h : spelling.IsClear) :
    parts? spelling.text.toList = some spelling.place.repository := by
  obtain ⟨rest, hend, hsplit⟩ := exists_splitOn_text spelling
  have hblank := JiraAddress.any_isBlank_eq_false_iff.mpr (isBlank_text spelling)
  have hne {part : String} (h : IsPart part) : part.toList ≠ [] := by simpa using h.1
  have hclone : spelling.clone.toList = [] ∨ spelling.clone.toList = cloneEnding := by
    rcases List.mem_pair.mp spelling.clone_mem with hclone | hclone
    · rw [hclone]
      exact Or.inl rfl
    · rw [hclone]
      exact Or.inr rfl
  have hname : bareName (spelling.place.name.toList ++ spelling.clone.toList) =
      spelling.place.name.toList := by
    refine bareName_append (hne spelling.place.isPart_name) hclone fun start hstart hname => ?_
    have hclear : IsCloneName spelling.place.name := by
      refine ⟨String.ofList start, by simpa using hstart, ?_⟩
      rw [← String.toList_inj, hname, String.toList_append, String.toList_ofList]
      rfl
    rw [h hclear]
    rfl
  have hscheme : (spelling.place.scheme.toList ++ [':'] == "http:".toList ||
      spelling.place.scheme.toList ++ [':'] == "https:".toList) = true := by
    have hschemes : ∀ scheme ∈ ["http", "https"], (scheme.toList ++ [':'] == "http:".toList ||
        scheme.toList ++ [':'] == "https:".toList) = true := by decide
    exact hschemes _ spelling.place.scheme_mem
  rw [parts?, hblank, hsplit]
  simp only [hscheme, hend, hname, List.dropLast_concat, String.ofList_toList]
  simp [hne spelling.place.isPart_host, hne spelling.place.isPart_owner,
    hne spelling.place.isPart_name, Place.repository]

/-- The parts between the slashes of an accepted text, of which the fifth has the name in it. -/
theorem exists_splitOn_of_parts? {chars : List Char} (h : parts? chars = some repository) :
    ∃ scheme ∈ ["http", "https"], ∃ host owner segment rest,
      chars.splitOn '/' = (scheme.toList ++ [':']) :: [] :: host :: owner :: segment :: rest ∧
      (∀ c ∈ chars, isBlank c = false) ∧ host ≠ [] ∧ owner ≠ [] ∧ segment ≠ [] ∧
      isEnd rest = true ∧
      repository = onHost scheme (String.ofList host) (String.ofList owner)
        (String.ofList (bareName segment)) := by
  unfold parts? at h
  split at h
  · contradiction
  rename_i hblank
  have hunblank := JiraAddress.any_isBlank_eq_false_iff.mp (eq_false_of_ne_true hblank)
  split at h
  · rename_i scheme host owner segment rest hsplit
    split at h
    · rename_i hparts
      simp only [Bool.and_eq_true, Bool.or_eq_true, beq_iff_eq, bne_iff_ne] at hparts
      obtain ⟨⟨⟨⟨hscheme, hhost⟩, howner⟩, hsegment⟩, hend⟩ := hparts
      have hfound := (Option.some.inj h).symm
      rcases hscheme with rfl | rfl
      · exact ⟨"http", by simp, host, owner, segment, rest, hsplit, hunblank, hhost, howner,
          hsegment, hend, hfound⟩
      · exact ⟨"https", by simp, host, owner, segment, rest, hsplit, hunblank, hhost, howner,
          hsegment, hend, hfound⟩
    · contradiction
  · contradiction

/-- Whatever is accepted is the address of the repository that is found. -/
theorem exists_spelling_of_parts? {text : String} (h : parts? text.toList = some repository) :
    ∃ spelling : Spelling, text = spelling.text ∧ spelling.IsClear ∧
      spelling.place.repository = repository := by
  obtain ⟨scheme, hscheme, host, owner, segment, rest, hsplit, hunblank, hhost, howner, hsegment,
    hend, rfl⟩ := exists_splitOn_of_parts? h
  obtain ⟨issues, hissues, slash, hslash, hrest⟩ := exists_ends_of_isEnd hend
  obtain ⟨clone, hclone, hname, hne, hclear⟩ := exists_clone_of_bareName hsegment
  have hplain : ∀ part ∈ text.toList.splitOn '/', ∀ c ∈ part, c ≠ '/' ∧ isBlank c = false := by
    intro part hpart c hc
    obtain ⟨hmem, hmark⟩ := mem_of_mem_splitOnP hpart c hc
    exact ⟨by simpa using hmark, hunblank c hmem⟩
  simp only [hsplit, List.forall_mem_cons] at hplain
  obtain ⟨_, _, hhostPlain, hownerPlain, hsegmentPlain, _⟩ := hplain
  let place : Place := {
    scheme := scheme
    host := String.ofList host
    owner := String.ofList owner
    name := String.ofList (bareName segment)
    scheme_mem := hscheme
    isPart_host := ⟨by simpa using hhost, by simpa using hhostPlain⟩
    isPart_owner := ⟨by simpa using howner, by simpa using hownerPlain⟩
    isPart_name := by
      refine ⟨by simpa using hne, fun c hc => hsegmentPlain c ?_⟩
      rw [String.toList_ofList] at hc
      exact (bareName_isPrefix segment).subset hc }
  refine ⟨⟨place, clone, issues, slash, hclone, hissues, hslash⟩, ?_, ?_, rfl⟩
  · have hwhole : text.toList = ['/'].intercalate (text.toList.splitOn '/') :=
      (List.intercalate_splitOn '/').symm
    rw [hsplit, intercalate_parts, hrest, hname] at hwhole
    rw [← String.toList_inj, hwhole]
    simp [Spelling.text, Place.text, place]
  · rintro ⟨start, hstart, hkept⟩
    refine hclear start.toList (by simpa using hstart) ?_
    rw [← String.toList_inj, String.toList_ofList] at hkept
    rw [hkept, String.toList_append]
    rfl

/-- The addresses that are read are the clear spellings of places, each as its repository. -/
theorem parse_eq_ok_iff : parse url = .ok repository ↔
    ∃ spelling : Spelling, trim url = spelling.text ∧ spelling.IsClear ∧
      spelling.place.repository = repository := by
  have hparts : parse url = .ok repository ↔ parts? (trim url).toList = some repository := by
    rw [toList_trim]
    unfold parse
    split
    · rename_i found hfound
      rw [hfound, Except.ok.injEq, Option.some.injEq]
    · rename_i hnone
      rw [hnone]
      exact ⟨nofun, nofun⟩
  rw [hparts]
  constructor
  · exact exists_spelling_of_parts?
  · rintro ⟨spelling, htext, hclear, rfl⟩
    rw [htext]
    exact parts?_text hclear

end Reading

section Matching

variable {text url : String}

def pattern : List Piece :=
  let many := Piece.many fun c => c != '/' && !isBlank c
  let few := Piece.few fun c => c != '/' && !isBlank c
  [ .exactly "http".toList, .perhaps ['s'], .exactly "://".toList, many, .exactly ['/'],
    many, .exactly ['/'], few, .perhaps ".git".toList, .perhaps "/issues".toList, .perhaps ['/'] ]

def ofParts : List (List Char) → Option GitHubRepository
  | [http, s, _, host, _, owner, _, name, _, _, _] =>
    some (onHost (String.ofList (http ++ s)) (String.ofList host) (String.ofList owner)
      (String.ofList name))
  | _ => none

def Spelling.parts (spelling : Spelling) : List (List Char) :=
  [ "http".toList, spelling.place.scheme.toList.drop 4, "://".toList, spelling.place.host.toList,
    ['/'], spelling.place.owner.toList, ['/'], spelling.place.name.toList, spelling.clone.toList,
    spelling.issues.toList, spelling.slash.toList ]

theorem scheme_toList (place : Place) :
    place.scheme.toList = "http".toList ++ place.scheme.toList.drop 4 ∧
      (place.scheme.toList.drop 4 = ['s'] ∨ place.scheme.toList.drop 4 = []) := by
  have hschemes : ∀ scheme ∈ ["http", "https"],
      scheme.toList = "http".toList ++ scheme.toList.drop 4 ∧
        (scheme.toList.drop 4 = ['s'] ∨ scheme.toList.drop 4 = []) := by decide
  exact hschemes _ place.scheme_mem

theorem ofParts_parts (spelling : Spelling) :
    ofParts spelling.parts = some spelling.place.repository := by
  obtain ⟨hscheme, _⟩ := scheme_toList spelling.place
  rw [Spelling.parts, ofParts, ← hscheme]
  simp only [String.ofList_toList, Place.repository]

theorem isPart_iff {part : List Char} : IsPart (String.ofList part) ↔
    part ≠ [] ∧ ∀ c ∈ part, (c != '/' && !isBlank c) = true := by
  simp [IsPart]

theorem accepts_pattern_iff_spelling {parts : List (List Char)} :
    List.Forall₂ Piece.Accepts pattern parts ↔ ∃ spelling : Spelling, parts = spelling.parts := by
  constructor
  · simp only [pattern, List.forall₂_cons_left_iff, List.forall₂_nil_left_iff, Piece.Accepts]
    rintro ⟨_, _, rfl, ⟨s, _, hs, ⟨_, _, rfl, ⟨host, _, hhost, ⟨_, _, rfl, ⟨owner, _, howner,
      ⟨_, _, rfl, ⟨name, _, hname, ⟨clone, _, hclone, ⟨issues, _, hissues, ⟨slash, _, hslash, rfl,
      rfl⟩, rfl⟩, rfl⟩, rfl⟩, rfl⟩, rfl⟩, rfl⟩, rfl⟩, rfl⟩, rfl⟩, rfl⟩
    have hmem {part token : List Char} (h : part = token ∨ part = []) :
        String.ofList part ∈ ["", String.ofList token] := by
      rcases h with rfl | rfl
      · simp
      · simp
    refine ⟨⟨⟨String.ofList ("http".toList ++ s), String.ofList host, String.ofList owner,
      String.ofList name, ?_, isPart_iff.mpr hhost, isPart_iff.mpr howner, isPart_iff.mpr hname⟩,
      String.ofList clone, String.ofList issues, String.ofList slash, hmem hclone, hmem hissues,
      hmem hslash⟩, ?_⟩
    · rcases hs with rfl | rfl
      · decide
      · decide
    · simp [Spelling.parts]
  · rintro ⟨spelling, rfl⟩
    obtain ⟨_, hs⟩ := scheme_toList spelling.place
    have hpart {part : String} (h : IsPart part) :
        part.toList ≠ [] ∧ ∀ c ∈ part.toList, (c != '/' && !isBlank c) = true := by
      rw [← isPart_iff, String.ofList_toList]
      exact h
    have hoption {part token : String} (h : part ∈ ["", token]) :
        part.toList = token.toList ∨ part.toList = [] := by
      rcases List.mem_pair.mp h with rfl | rfl
      · exact Or.inr rfl
      · exact Or.inl rfl
    have hhost := hpart spelling.place.isPart_host
    have howner := hpart spelling.place.isPart_owner
    have hname := hpart spelling.place.isPart_name
    have hclone := hoption spelling.clone_mem
    have hissues := hoption spelling.issues_mem
    have hslash := hoption spelling.slash_mem
    exact .cons rfl (.cons hs (.cons rfl (.cons hhost (.cons rfl (.cons howner (.cons rfl
      (.cons hname (.cons hclone (.cons hissues (.cons hslash .nil))))))))))

theorem flatten_parts (spelling : Spelling) : spelling.parts.flatten = spelling.text.toList := by
  obtain ⟨hscheme, _⟩ := scheme_toList spelling.place
  simp only [Spelling.parts, Spelling.text, Place.text, String.toList_append]
  rw [hscheme]
  simp

/-- The pattern takes a text apart in as many ways as there are addresses that are written so. -/
theorem mem_readings_pattern_iff {parts : List (List Char)} :
    parts ∈ readings pattern text.toList ↔
      ∃ spelling : Spelling, text = spelling.text ∧ parts = spelling.parts := by
  rw [mem_readings_iff, accepts_pattern_iff_spelling]
  constructor
  · rintro ⟨htext, spelling, rfl⟩
    rw [flatten_parts, String.toList_inj] at htext
    exact ⟨spelling, htext, rfl⟩
  · rintro ⟨spelling, rfl, rfl⟩
    exact ⟨(flatten_parts spelling).symm, spelling, rfl⟩

/-- In the first reading the ending for cloning is not left to a name that can do without it. -/
theorem isClear_of_head? {spelling : Spelling}
    (h : (readings pattern text.toList).head? = some spelling.parts) : spelling.IsClear := by
  rintro ⟨start, hstart, hname⟩
  refine (List.mem_pair.mp spelling.clone_mem).resolve_left fun hclone => ?_
  -- The same text can be read with the ending behind the name, which makes the name shorter.
  have hpart : IsPart start := by
    refine ⟨hstart, fun c hc => spelling.place.isPart_name.2 c ?_⟩
    rw [hname, String.toList_append]
    exact List.mem_append_left _ hc
  let other : Spelling := {
    spelling with
    place := { spelling.place with name := start, isPart_name := hpart }
    clone := ".git"
    clone_mem := by simp }
  have htext : other.text = spelling.text := by
    simp only [Spelling.text, Place.text, other, hname, hclone, String.append_assoc,
      String.empty_append]
  have hother : other.parts ∈ readings pattern text.toList := by
    obtain ⟨found, hfound, hparts⟩ := mem_readings_pattern_iff.mp (List.mem_of_head? h)
    have hsame : found.text = spelling.text := by
      rw [← String.toList_inj, ← flatten_parts, ← flatten_parts, hparts]
    exact mem_readings_pattern_iff.mpr ⟨other, by rw [hfound, hsame, htext], rfl⟩
  have hprecedes := precedes_of_head? h hother
  simp [Precedes, pattern, Spelling.parts, Piece.Prefers, other, hname] at hprecedes
  omega

/-- The reading that the pattern prefers is the one that the program has. -/
theorem parse_eq_head? (url : String) :
    parse url = ((readings pattern (trim url).toList).head?.bind ofParts).elim
      (.error (.invalidGitHubUrl url)) .ok := by
  cases hreadings : (readings pattern (trim url).toList).head? with
  | some parts =>
    obtain ⟨spelling, htext, rfl⟩ := mem_readings_pattern_iff.mp (List.mem_of_head? hreadings)
    have hclear := isClear_of_head? hreadings
    rw [Option.bind_some, ofParts_parts]
    exact parse_eq_ok_iff.mpr ⟨spelling, htext, hclear, rfl⟩
  | none =>
    cases hparse : parse url with
    | ok repository =>
      obtain ⟨spelling, htext, _⟩ := parse_eq_ok_iff.mp hparse
      have hmem : spelling.parts ∈ readings pattern (trim url).toList :=
        mem_readings_pattern_iff.mpr ⟨spelling, htext, rfl⟩
      rw [List.head?_eq_none_iff.mp hreadings] at hmem
      exact absurd hmem List.not_mem_nil
    | error cause =>
      unfold parse at hparse
      split at hparse
      · contradiction
      · exact hparse.symm

end Matching

/-- A repository whose name does not end with the ending for cloning is found at all eight addresses
that it can be given by, and again at the address of its list of issues. Whatever is accepted is
such an address, and what is found there is what the first reading by the pattern finds. -/
theorem parse_isRecovery :
    (∀ place : Place, ¬".git".toList <:+ place.name.toList →
      place.repository.owner = place.owner ∧ place.repository.name = place.name ∧
      (∀ clone ∈ ["", ".git"], ∀ issues ∈ ["", "/issues"], ∀ slash ∈ ["", "/"],
        parse (place.text ++ clone ++ issues ++ slash) = .ok place.repository) ∧
      parse place.repository.issuesUrl = .ok place.repository) ∧
    (∀ url repository, parse url = .ok repository ↔
      ∃ spelling : Spelling, trim url = spelling.text ∧ spelling.IsClear ∧
        spelling.place.repository = repository) ∧
    ∀ url, parse url = ((readings pattern (trim url).toList).head?.bind ofParts).elim
      (.error (.invalidGitHubUrl url)) .ok := by
  refine ⟨fun place hname => ?_, fun url repository => parse_eq_ok_iff, parse_eq_head?⟩
  have hspelled (clone : String) (hclone : clone ∈ ["", ".git"]) (issues : String)
      (hissues : issues ∈ ["", "/issues"]) (slash : String) (hslash : slash ∈ ["", "/"]) :
      parse (place.text ++ clone ++ issues ++ slash) = .ok place.repository := by
    let spelling : Spelling := ⟨place, clone, issues, slash, hclone, hissues, hslash⟩
    have htrim : trim spelling.text = spelling.text := by
      rw [← String.toList_inj, toList_trim, trimChars_of_forall (isBlank_text spelling)]
    refine parse_eq_ok_iff.mpr ⟨spelling, htrim, ?_, rfl⟩
    rintro ⟨start, _, hstart⟩
    refine absurd ⟨start.toList, ?_⟩ hname
    rw [hstart, String.toList_append]
  have hissuesUrl : place.repository.issuesUrl = place.text ++ "" ++ "/issues" ++ "" := by
    simp only [Place.repository, onHost, Place.text, String.append_empty]
  refine ⟨rfl, rfl, hspelled, ?_⟩
  rw [hissuesUrl]
  exact hspelled "" (by simp) "/issues" (by simp) "" (by simp)

def samplePlace : Place where
  scheme := "https"
  host := "git.example.org"
  owner := ".git"
  name := "issues"
  scheme_mem := by decide
  isPart_host := by decide +kernel
  isPart_owner := by decide +kernel
  isPart_name := by decide +kernel

/-- Neither the ending for cloning nor the page of issues is taken for the owner or the name. -/
theorem parse_isRecovery_sample :
    ¬".git".toList <:+ samplePlace.name.toList ∧
      parse "https://git.example.org/.git/issues.git/issues/" = .ok samplePlace.repository ∧
      parse "https://git.example.org/.git/issues" = .ok samplePlace.repository := by
  have hname : ¬".git".toList <:+ samplePlace.name.toList := by decide +kernel
  obtain ⟨_, _, hspelled, _⟩ := parse_isRecovery.1 samplePlace hname
  exact ⟨hname, hspelled ".git" (by simp) "/issues" (by simp) "/" (by simp),
    hspelled "" (by simp) "" (by simp) "" (by simp)⟩

end ReleaseNotes.GitHubRepository
