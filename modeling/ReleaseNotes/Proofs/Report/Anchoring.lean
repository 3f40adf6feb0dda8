import Mathlib.Data.List.Pairwise
import ReleaseNotes.Proofs.Report.Sections

/-!
Anchors of versions. An anchor begins with a letter and holds nothing but letters, digits and three
marks. Every other character of the version is an underscore in it, so two versions have the same
anchor exactly if they differ in nothing else. On the page the link to a release leads to the first
section that has the anchor of its version.
-/

namespace ReleaseNotes

namespace Anchor

/-- Characters that look the same in anchors. -/
def IsConfused (c d : Char) : Prop :=
  c = d ∨ (c = '_' ∨ isKept c = false) ∧ (d = '_' ∨ isKept d = false)

def lettered (version : String) : List Char :=
  if startsWithLetter version.toList then version.toList else 'a' :: version.toList

/-- Versions that look the same in anchors. -/
def IsSame (first second : String) : Prop :=
  List.Forall₂ IsConfused (lettered first) (lettered second)

def IsAnchor (text : String) : Prop :=
  startsWithLetter text.toList = true ∧
    ∀ c ∈ text.toList, c.isAlphanum = true ∨ c = '-' ∨ c = '_' ∨ c = '.'

def shown (c : Char) : Char :=
  if isKept c then c else '_'

theorem isKept_iff {c : Char} :
    isKept c = true ↔ c.isAlphanum = true ∨ c = '-' ∨ c = '_' ∨ c = '.' := by
  simp [isKept, or_assoc]

theorem isKept_of_isAlpha {c : Char} (h : c.isAlpha = true) : isKept c = true := by
  simp [isKept, Char.isAlphanum, h]

theorem isKept_shown (c : Char) : isKept (shown c) = true := by
  rw [shown]
  split
  · assumption
  · rfl

theorem isAlpha_shown (c : Char) : (shown c).isAlpha = c.isAlpha := by
  by_cases hkept : isKept c = true
  · rw [shown, if_pos hkept]
  · have hletter : c.isAlpha = false := eq_false_of_ne_true (mt isKept_of_isAlpha hkept)
    rw [shown, if_neg hkept, hletter]
    rfl

theorem shown_eq_underscore_iff {c : Char} : shown c = '_' ↔ c = '_' ∨ isKept c = false := by
  by_cases hkept : isKept c = true
  · simp [shown, hkept]
  · simp [shown, hkept]

/-- Two characters look the same in anchors exactly if they are confused. -/
theorem shown_eq_iff {c d : Char} : shown c = shown d ↔ IsConfused c d := by
  rw [IsConfused, ← shown_eq_underscore_iff, ← shown_eq_underscore_iff]
  constructor
  · intro h
    by_cases hc : shown c = '_'
    · exact Or.inr ⟨hc, h ▸ hc⟩
    · have hd : ¬shown d = '_' := h ▸ hc
      rw [shown_eq_underscore_iff, not_or, Bool.not_eq_false] at hc hd
      rw [shown, shown, if_pos hc.2, if_pos hd.2] at h
      exact Or.inl h
  · rintro (rfl | ⟨hc, hd⟩)
    · rfl
    · rw [hc, hd]

theorem startsWithLetter_map_shown (chars : List Char) :
    startsWithLetter (chars.map shown) = startsWithLetter chars := by
  cases chars with
  | nil => rfl
  | cons c rest => exact isAlpha_shown c

theorem startsWithLetter_lettered (version : String) :
    startsWithLetter (lettered version) = true := by
  rw [lettered]
  split
  · assumption
  · rfl

theorem toList_ofVersion (version : String) :
    (ofVersion version).toList = (lettered version).map shown := by
  have hletter := startsWithLetter_map_shown version.toList
  have hchars : (ofVersion version).toList =
      if startsWithLetter (version.toList.map shown) then version.toList.map shown
      else 'a' :: version.toList.map shown := String.toList_ofList
  rw [hchars, hletter, lettered, apply_ite (List.map shown)]
  rfl

/-- Anchors are made of what browsers allow in them, for every version. -/
theorem isAnchor_ofVersion (version : String) : IsAnchor (ofVersion version) := by
  rw [IsAnchor, toList_ofVersion, startsWithLetter_map_shown]
  refine ⟨startsWithLetter_lettered version, ?_⟩
  intro c hc
  obtain ⟨d, _, rfl⟩ := List.mem_map.mp hc
  exact isKept_iff.mp (isKept_shown d)

/-- Two versions share an anchor exactly if they look the same character by character. -/
theorem ofVersion_eq_iff {first second : String} :
    ofVersion first = ofVersion second ↔ IsSame first second := by
  rw [← String.toList_inj, toList_ofVersion, toList_ofVersion, IsSame, ← List.forall₂_eq_eq_eq,
    List.forall₂_map_left_iff, List.forall₂_map_right_iff]
  simp only [shown_eq_iff]

end Anchor

namespace Html

def valueAfter? (start : String) (source : List Char) : Option String :=
  (Text.afterStart? start.toList source).map fun rest => String.ofList (rest.takeWhile (· != '"'))

def valuesAfter (start : String) (nodes : List Node) : List String :=
  nodes.filterMap fun
    | .element source _ => valueAfter? start source
    | _ => none

@[simp] theorem valuesAfter_append (start : String) (first second : List Node) :
    valuesAfter start (first ++ second) = valuesAfter start first ++ valuesAfter start second :=
  List.filterMap_append

@[simp] theorem valuesAfter_plain (start content : String) :
    valuesAfter start (plain content) = [] :=
  filterMap_plain (fun _ => rfl) content

@[simp] theorem valuesAfter_nil (start : String) : valuesAfter start [] = [] := rfl

theorem valuesAfter_cons_ofTag (start source : String) (content nodes : List Node) :
    valuesAfter start (.ofTag source content :: nodes) =
      (valueAfter? start source.toList).toList ++ valuesAfter start nodes := by
  cases hvalue : valueAfter? start source.toList with
  | none => simp [valuesAfter, Node.ofTag, hvalue]
  | some value => simp [valuesAfter, Node.ofTag, hvalue]

theorem valuesAfter_flatMap {α : Type} (start : String) (items : List α) (nodes : α → List Node) :
    valuesAfter start (items.flatMap nodes) =
      items.flatMap fun item => valuesAfter start (nodes item) :=
  List.filterMap_flatMap

/-- No text has a quotation mark in it when it is written. -/
theorem quote_notMem_reference (c : Char) : '"' ∉ reference c := by
  rcases Reader.reference_cases c with ⟨name, hmem, hwritten⟩ | ⟨_, _, hwritten⟩
  · have hnames : ∀ entry ∈ references, '"' ∉ '&' :: (entry.1 ++ [';']) := by decide +kernel
    rw [hwritten]
    exact hnames (name, c) hmem
  · by_cases hquote : c = '"'
    · rw [hquote]
      decide +kernel
    · rw [hwritten]
      simpa using Ne.symm hquote

/-- The value of the last attribute is read from a tag as it is written there. -/
theorem valueAfter?_withValue_eq (start value : String) :
    valueAfter? start (withValue start value).toList = some (escaped value).render := by
  have hsource : (withValue start value).toList =
      start.toList ++ ((escaped value).render.toList ++ ['"']) := by
    rw [withValue, String.toList_append, String.toList_append, List.append_assoc]
    rfl
  have hquote : ∀ c ∈ (escaped value).render.toList, (c != '"') = true := by
    intro c hc
    rw [toList_render, chars_escaped, List.mem_flatMap] at hc
    obtain ⟨d, _, hd⟩ := hc
    refine bne_iff_ne.mpr ?_
    rintro rfl
    exact quote_notMem_reference d hd
  rw [valueAfter?, hsource, Text.afterStart?_eq_some_iff.mpr rfl, Option.map_some,
    List.takeWhile_append_of_pos hquote, List.takeWhile_cons_of_neg (by simp), List.append_nil,
    String.ofList_toList]

/-- An anchor is read from the tag that it is the value of. -/
theorem valueAfter?_withValue (start : String) {value : String}
    (h : ∀ c ∈ value.toList, reference c = [c]) :
    valueAfter? start (withValue start value).toList = some value := by
  rw [valueAfter?_withValue_eq, Option.some.injEq, ← String.toList_inj, toList_render,
    chars_escaped]
  calc
    value.toList.flatMap reference = value.toList.flatMap fun c => [c] := List.flatMap_congr h
    _ = value.toList := List.flatMap_singleton' _

theorem elementsAt_append (first second : List String) (nodes : List Node) :
    elementsAt (first ++ second) nodes = (elementsAt first nodes).flatMap (elementsAt second) := by
  induction first generalizing nodes with
  | nil => simp [elementsAt]
  | cons name names ih =>
    rw [List.cons_append, elementsAt, elementsAt, List.flatMap_assoc]
    exact List.flatMap_congr fun inner _ => ih inner

/-- The values in a page, unless its heading or its footer has one, are those of what it is made
for. -/
theorem valuesAfter_page {start : String} (hheading : valueAfter? start "h1".toList = none)
    (hfooter : valueAfter? start "footer".toList = none) (title : String)
    (styles : List (String × String)) (nodes : List Node) (generatedOn : String) :
    (elementsAt ["html", "body"] (pageNodes title styles nodes generatedOn)).flatMap
        (valuesAfter start) = valuesAfter start nodes := by
  have hvoid (source : String) (nodes : List Node) :
      elements "html" (.ofVoidTag source :: nodes) = elements "html" nodes := rfl
  have hheading' : valueAfter? start ['h', '1'] = none := hheading
  have hfooter' : valueAfter? start ['f', 'o', 'o', 't', 'e', 'r'] = none := hfooter
  simp [elementsAt, pageNodes, hvoid, nameOf, valuesAfter_cons_ofTag, hheading', hfooter']

end Html

namespace ChangesPage

open Text Html

def sectionAnchors (nodes : List Node) : List String :=
  (elementsAt ["html", "body"] nodes).flatMap (valuesAfter "section id=\"")

def historyTargets (nodes : List Node) : List String :=
  (elementsAt ["html", "body", "table", "tr", "td"] nodes).flatMap (valuesAfter "a href=\"#")

/-- The section that a link in the history leads to: the first one with the anchor. -/
def sectionOf? (nodes : List Node) (place : Nat) : Option Nat :=
  (historyTargets nodes)[place]?.bind fun target =>
    (sectionAnchors nodes).findIdx? (· == target)

theorem valueAfter?_anchor (start version : String) :
    valueAfter? start (withValue start (Anchor.ofVersion version)).toList =
      some (Anchor.ofVersion version) := by
  apply valueAfter?_withValue
  intro c hc
  obtain ⟨_, hkept⟩ := Anchor.isAnchor_ofVersion version
  have hplain : c ≠ '<' ∧ c ≠ '>' ∧ c ≠ '&' ∧ c ≠ '"' ∧ c ≠ '\'' := by
    refine ⟨?_, ?_, ?_, ?_, ?_⟩ <;>
    · rintro rfl
      exact absurd (hkept _ hc) (by decide)
  obtain ⟨hless, hgreater, hampersand, hquote, hapostrophe⟩ := hplain
  simp [reference, hless, hgreater, hampersand, hquote, hapostrophe]

variable (linker : Linker) (team : Option String)

theorem valuesAfter_authorNodes (content : Content) :
    valuesAfter "section id=\"" content.authorNodes = [] := by
  have htag : valueAfter? "section id=\"" "p class=\"author\"".toList = none := by decide +kernel
  rw [Content.authorNodes]
  split
  · rw [valuesAfter_append, valuesAfter_append, valuesAfter_cons_ofTag, htag]
    simp
  · exact valuesAfter_plain _ _

theorem valuesAfter_element (showDate : Bool) (release : Release) :
    valuesAfter "section id=\"" ((Section.ofRelease linker team release).element showDate) =
      [Anchor.ofVersion release.version] := by
  have hanchor : (Section.ofRelease linker team release).anchor =
      Anchor.ofVersion release.version := rfl
  rw [Section.element, valuesAfter_append, valuesAfter_append, valuesAfter_plain,
    valuesAfter_cons_ofTag, hanchor, valueAfter?_anchor]
  rfl

/-- Only the first cell in the row of a release is a link. -/
theorem targets_historyNodes (release : Release) :
    (elementsAt ["td"] (Section.ofRelease linker team release).historyNodes).flatMap
        (valuesAfter "a href=\"#") = [Anchor.ofVersion release.version] := by
  have hanchor : (Section.ofRelease linker team release).anchor =
      Anchor.ofVersion release.version := rfl
  simp [elementsAt, Section.historyNodes, cellNodes, nameOf, valuesAfter_cons_ofTag, hanchor,
    valueAfter?_anchor]

theorem elements_historyTitleNodes : elements "td" historyTitleNodes = [] := by
  simp [historyTitleNodes, cellNodes, nameOf]

section Page

variable (content : Content) (generatedOn : String) {releases : List Release}

/-- The page has the anchors of all releases in their order. -/
theorem sectionAnchors_content
    (h : content.sections = releases.map (Section.ofRelease linker team)) :
    sectionAnchors (pageNodes content.title styles content.nodes generatedOn) =
      releases.map fun release => Anchor.ofVersion release.version := by
  have hheading : valueAfter? "section id=\"" "h2".toList = none := by decide +kernel
  have htable : valueAfter? "section id=\"" "table".toList = none := by decide +kernel
  have hpage : valueAfter? "section id=\"" "h1".toList = none ∧
      valueAfter? "section id=\"" "footer".toList = none := by
    decide +kernel
  rw [sectionAnchors, valuesAfter_page hpage.1 hpage.2]
  simp only [Content.nodes, valuesAfter_append, valuesAfter_authorNodes, valuesAfter_plain,
    valuesAfter_cons_ofTag, hheading, htable, valuesAfter_nil, Option.toList_none,
    List.nil_append, List.append_nil]
  rw [h, valuesAfter_flatMap, List.flatMap_map, List.map_eq_flatMap]
  exact List.flatMap_congr fun release _ => valuesAfter_element linker team _ release

theorem historyTargets_content
    (h : content.sections = releases.map (Section.ofRelease linker team)) :
    historyTargets (pageNodes content.title styles content.nodes generatedOn) =
      releases.map fun release => Anchor.ofVersion release.version := by
  have htitles : elementsAt ["td"] historyTitleNodes = [] := by
    rw [elementsAt, elements_historyTitleNodes, List.flatMap_nil]
  have hrows : elementsAt ["tr", "td"] (historyNodes content.sections) =
      releases.flatMap fun release =>
        elementsAt ["td"] (Section.ofRelease linker team release).historyNodes := by
    rw [elementsAt, elements_historyNodes, List.flatMap_cons, htitles, List.nil_append, h,
      List.flatMap_map, List.flatMap_map]
  have hnames : ["html", "body", "table", "tr", "td"] =
      ["html", "body", "table"] ++ ["tr", "td"] := rfl
  rw [historyTargets, hnames, elementsAt_append, elementsAt_table, List.flatMap_singleton, hrows,
    List.flatMap_assoc, List.map_eq_flatMap]
  exact List.flatMap_congr fun release _ => targets_historyNodes linker team release

end Page

/-- The link to a release leads to the first section of a release that looks the same. -/
theorem sectionOf?_eq_some_iff {nodes : List Node} {releases : List Release}
    (hsections : sectionAnchors nodes =
      releases.map fun release => Anchor.ofVersion release.version)
    (htargets : historyTargets nodes =
      releases.map fun release => Anchor.ofVersion release.version)
    (place : Fin releases.length) :
    sectionOf? nodes place = some place.val ↔
      ∀ other ∈ releases.take place, ¬Anchor.IsSame other.version releases[place].version := by
  have htarget : (historyTargets nodes)[place.val]? =
      some (Anchor.ofVersion releases[place].version) := by
    rw [htargets, List.getElem?_map, List.getElem?_eq_getElem place.isLt]
    rfl
  rw [sectionOf?, htarget, Option.bind_some, hsections, List.findIdx?_eq_some_iff_getElem]
  simp only [List.getElem_map, List.length_map, beq_iff_eq, Anchor.ofVersion_eq_iff]
  constructor
  · rintro ⟨_, _, hbefore⟩ other hother
    obtain ⟨before, hbound, rfl⟩ := List.mem_take_iff_getElem.mp hother
    exact hbefore before (Nat.lt_of_lt_of_le hbound (Nat.min_le_left _ _))
  · intro h
    refine ⟨place.isLt, Anchor.ofVersion_eq_iff.mp rfl, ?_⟩
    intro before hbefore
    have hbound : before < min place.val releases.length :=
      Nat.lt_min.mpr ⟨hbefore, hbefore.trans place.isLt⟩
    exact h _ (List.mem_take_iff_getElem.mpr ⟨before, hbound, rfl⟩)

/-- Versions have different anchors exactly if they differ in something that stays in anchors. The
sections of a page have different anchors, and each link in its history leads to the section of its
own release, exactly if no two of the versions look the same. -/
theorem anchors_tellApart_iff :
    (∀ version, Anchor.IsAnchor (Anchor.ofVersion version)) ∧
      (∀ first second, Anchor.ofVersion first = Anchor.ofVersion second ↔
        Anchor.IsSame first second) ∧
      ∀ (project : Metadata) (document : ChangesDocument) (releases : List Release)
        (showActionDate : Bool) (generatedOn : String),
        ∃ page nodes,
          (report project document releases showActionDate generatedOn).outcome = .ok page ∧
            read? page = some nodes ∧
            sectionAnchors nodes =
              releases.map (fun release => Anchor.ofVersion release.version) ∧
            ((sectionAnchors nodes).Nodup ↔
              releases.Pairwise fun one other => ¬Anchor.IsSame one.version other.version) ∧
            ∀ place : Fin releases.length, sectionOf? nodes place = some place.val ↔
              ∀ other ∈ releases.take place,
                ¬Anchor.IsSame other.version releases[place].version := by
  refine ⟨Anchor.isAnchor_ofVersion, fun _ _ => Anchor.ofVersion_eq_iff, ?_⟩
  intro project document releases showActionDate generatedOn
  have hsections := sectionAnchors_content (.ofProject project) (nonBlank? project.team)
    (.of project document releases showActionDate) generatedOn rfl
  have htargets := historyTargets_content (.ofProject project) (nonBlank? project.team)
    (.of project document releases showActionDate) generatedOn rfl
  refine ⟨_, _, rfl, (spells_content _ generatedOn).read?_render, hsections, ?_,
    sectionOf?_eq_some_iff hsections htargets⟩
  rw [hsections, List.Nodup, List.pairwise_map]
  simp only [Anchor.ofVersion_eq_iff, ne_eq]

def sampleReleases : List Release :=
  [⟨"2.0~rc1", none, none, [], []⟩, ⟨"2.0+rc1", none, none, [], []⟩]

/-- Two versions that differ in a character that becomes an underscore. Both sections have the same
anchor, and the link to the second release leads to the first one. -/
theorem link_leads_elsewhere :
    "2.0~rc1" ≠ "2.0+rc1" ∧ Anchor.ofVersion "2.0~rc1" = Anchor.ofVersion "2.0+rc1" ∧
      ∃ page nodes,
        (report (.ofName "Example" "2.0") .empty sampleReleases false "").outcome = .ok page ∧
          read? page = some nodes ∧ sectionAnchors nodes = ["a2.0_rc1", "a2.0_rc1"] ∧
          sectionOf? nodes 1 = some 0 := by
  have hanchors : sampleReleases.map (fun release => Anchor.ofVersion release.version) =
      ["a2.0_rc1", "a2.0_rc1"] := by
    decide +kernel
  have hsections := sectionAnchors_content (.ofProject (.ofName "Example" "2.0")) none
    (.of (.ofName "Example" "2.0") .empty sampleReleases false) "" rfl
  have htargets := historyTargets_content (.ofProject (.ofName "Example" "2.0")) none
    (.of (.ofName "Example" "2.0") .empty sampleReleases false) "" rfl
  rw [hanchors] at hsections htargets
  have hread := (spells_content (.of (.ofName "Example" "2.0") .empty sampleReleases false)
    "").read?_render
  refine ⟨by decide, by decide +kernel, _, _, rfl, hread, hsections, ?_⟩
  rw [sectionOf?, hsections, htargets]
  decide +kernel

end ChangesPage

end ReleaseNotes
