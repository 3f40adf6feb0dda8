import ReleaseNotes.Proofs.Text.Trimming
import ReleaseNotes.Proofs.Version.Items
import ReleaseNotes.Proofs.Version.Order

/-!
Suffixes behind a version. What is written behind a separator makes items of its own, so two
versions that begin alike are compared by what follows. The stages before a release, its snapshot,
the release itself, its service pack and other words hence stand in one order behind any version.
-/

namespace ReleaseNotes.Version

open Text

/-- A text that can be put behind a version: nothing, or a text that begins with a separator and has
no blank character at its end. -/
structure IsSuffix (suffix : List Char) : Prop where
  starts : ∀ c ∈ suffix.head?, isSeparator c = true
  ends : ∀ c ∈ suffix.getLast?, isBlank c = false

theorem isSuffix_of_all {suffix : List Char} (hstarts : suffix.head?.all isSeparator = true)
    (hends : suffix.getLast?.all (fun c => !isBlank c) = true) : IsSuffix suffix where
  starts c hc := (Option.all_eq_true _ _).mp hstarts c hc
  ends c hc := by simpa using (Option.all_eq_true _ _).mp hends c hc

section Appending

variable {version suffix first second : String}

theorem items_append (hversion : ∀ c ∈ version.toList.getLast?, isBlank c = false)
    (hsuffix : IsSuffix suffix.toList) :
    items (version ++ suffix) = items version ++ itemsOf suffix.toList := by
  have hstart : ∀ c ∈ suffix.toList.head?, isBlank c = false :=
    fun c hc => isBlank_of_isSeparator (hsuffix.starts c hc)
  have hbreaks : Breaks (trimChars version.toList) suffix.toList :=
    fun _ _ d hd => Or.inr (Or.inl (hsuffix.starts d hd))
  rw [items_eq, items_eq, String.toList_append, trimChars_append hversion hstart hsuffix.ends,
    itemsOf_append hbreaks]

/-- What two versions begin with does not matter. -/
theorem compareItems_append_append (shared left right : List Item) :
    compareItems (shared ++ left) (shared ++ right) = compareItems left right := by
  induction shared with
  | nil => rfl
  | cons item shared ih =>
    have hsame : compareItem item item = .eq := Std.ReflCmp.compare_self
    rw [List.cons_append, List.cons_append, compareItems, hsame, Ordering.eq_then, ih]

/-- Versions that begin alike are compared by their suffixes. -/
theorem compare_append_append (hversion : ∀ c ∈ version.toList.getLast?, isBlank c = false)
    (hfirst : IsSuffix first.toList) (hsecond : IsSuffix second.toList) :
    compare (version ++ first) (version ++ second) =
      compareItems (itemsOf first.toList) (itemsOf second.toList) := by
  rw [compare, items_append hversion hfirst, items_append hversion hsecond,
    compareItems_append_append]

end Appending

section Qualifiers

variable {word : String}

def qualifierItems (word : String) : List Item :=
  if word = "" then [] else [.qualifier word]

theorem compareItems_qualifierItems (left right : String) :
    compareItems (qualifierItems left) (qualifierItems right) = compareQualifiers left right := by
  have hself : compareQualifiers "" "" = .eq := rfl
  unfold qualifierItems
  split <;> split <;> simp_all [compareItems, compareItem, Item.absentBeside]

/-- The known qualifiers come in their order, and any other word after them. -/
theorem pairwise_knownQualifiers (h : word ∉ aliases ++ knownQualifiers) :
    (knownQualifiers ++ [word]).Pairwise fun former later =>
      compareQualifiers former later = .lt := by
  have hknown : knownQualifiers.Pairwise fun former later =>
      compareQualifiers former later = .lt := by decide
  have hplaces : ∀ former ∈ knownQualifiers, (qualifierRank former).1 < 7 := by decide
  rw [List.pairwise_append]
  refine ⟨hknown, List.pairwise_singleton _ _, fun former hformer later hlater => ?_⟩
  obtain rfl := List.mem_singleton.mp hlater
  rw [compareQualifiers, qualifierRank_of_notMem h, compare_lt_iff_lt.mpr (hplaces former hformer),
    Ordering.lt_then]

/-- A word of ASCII letters that is, in no letter case, a qualifier with a place of its own. -/
structure IsOtherWord (word : String) : Prop where
  letters : ∀ c ∈ word.toList, c.isAlpha = true
  other : lowercase word ∉ aliases ++ knownQualifiers

theorem toNat_bounds_of_isAlpha {c : Char} (h : c.isAlpha = true) :
    65 ≤ c.toNat ∧ c.toNat ≤ 90 ∨ 97 ≤ c.toNat ∧ c.toNat ≤ 122 := by
  have hupper : c.isUpper = decide ('A'.val ≤ c.val ∧ c.val ≤ 'Z'.val) := rfl
  have hlower : c.isLower = (decide ('a'.val ≤ c.val) && decide (c.val ≤ 'z'.val)) := rfl
  have hcases : c.isUpper = true ∨ c.isLower = true := Bool.or_eq_true_iff.mp h
  simp only [hupper, hlower, Bool.and_eq_true, decide_eq_true_eq, UInt32.le_iff_toNat_le] at hcases
  exact hcases

theorem isBlank_of_isAlpha {c : Char} (h : c.isAlpha = true) : isBlank c = false := by
  have hbounds := toNat_bounds_of_isAlpha h
  simp only [isBlank, Bool.or_eq_false_iff, Bool.and_eq_false_iff, decide_eq_false_iff_not,
    beq_eq_false_iff_ne]
  omega

theorem isDigit_of_isAlpha {c : Char} (h : c.isAlpha = true) : c.isDigit = false := by
  have hbounds := toNat_bounds_of_isAlpha h
  by_contra hdigit
  have hdigits := toNat_bounds_of_isDigit (eq_true_of_ne_false hdigit)
  omega

theorem isSeparator_of_isAlpha {c : Char} (h : c.isAlpha = true) : isSeparator c = false := by
  by_contra hseparator
  have hsigns := eq_true_of_ne_false hseparator
  simp only [isSeparator, Bool.or_eq_true, beq_iff_eq] at hsigns
  rcases hsigns with (rfl | rfl) | rfl <;> contradiction

theorem IsOtherWord.isRun (h : IsOtherWord word) : IsRun false word.toList where
  ne_nil := by
    intro hnil
    apply h.other
    rw [lowercase, hnil]
    decide
  isDigit_eq c hc := isDigit_of_isAlpha (h.letters c hc)
  isSeparator_eq c hc := isSeparator_of_isAlpha (h.letters c hc)

end Qualifiers

section Marking

variable {word suffix version : String}

/-- A suffix stands for a qualifier. -/
structure Marks (suffix word : String) : Prop where
  isSuffix : IsSuffix suffix.toList
  items_eq : itemsOf suffix.toList = qualifierItems word

theorem IsOtherWord.marks (h : IsOtherWord word) : Marks ("-" ++ word) (lowercase word) := by
  have htext : ("-" ++ word).toList = '-' :: word.toList := by simp
  have hne : lowercase word ≠ "" := by
    intro hempty
    apply h.other
    rw [hempty]
    decide
  refine ⟨⟨?_, ?_⟩, ?_⟩
  · rw [htext]
    exact fun c hc => Option.some.inj hc ▸ rfl
  · intro c hc
    rw [htext, List.getLast?_cons_of_ne_nil h.isRun.ne_nil] at hc
    exact isBlank_of_isAlpha (h.letters c (List.mem_of_getLast? hc))
  · have hitems := itemsOf_run_append h.isRun (stops_nil false)
    rw [List.append_nil] at hitems
    rw [htext, itemsOf_separator_cons rfl, hitems, ofRun_of_word h.isRun, String.ofList_toList,
      qualifierItems, if_neg hne, itemsOf_nil]

def knownSuffixes : List String :=
  ["-alpha", "-beta", "-milestone", "-rc", snapshotSuffix, "", "-sp"]

theorem marks_of_mem_zip :
    ∀ pair ∈ knownSuffixes.zip knownQualifiers, Marks pair.1 pair.2 := by
  have hpairs : ∀ pair ∈ knownSuffixes.zip knownQualifiers,
      pair.1.toList.head?.all isSeparator = true ∧
        pair.1.toList.getLast?.all (fun c => !isBlank c) = true ∧
        itemsOf pair.1.toList = qualifierItems pair.2 := by decide +kernel
  intro pair hpair
  obtain ⟨hstarts, hends, hitems⟩ := hpairs pair hpair
  exact ⟨isSuffix_of_all hstarts hends, hitems⟩

variable {release : String} (hrelease : ∀ c ∈ release.toList.getLast?, isBlank c = false)

include hrelease

/-- Behind the same release, suffixes are compared as their qualifiers. -/
theorem Marks.compare_eq {other otherWord : String} (h : Marks suffix word)
    (hother : Marks other otherWord) :
    compare (release ++ suffix) (release ++ other) = compareQualifiers word otherWord := by
  rw [compare_append_append hrelease h.isSuffix hother.isSuffix, h.items_eq, hother.items_eq,
    compareItems_qualifierItems]

/-- The suffixes come in the order of the qualifiers that they stand for. -/
theorem pairwise_knownSuffixes (hword : IsOtherWord word) :
    ((knownSuffixes ++ ["-" ++ word]).map (release ++ ·)).Pairwise fun older newer =>
      compare older newer = .lt := by
  let pairs := knownSuffixes.zip knownQualifiers ++ [("-" ++ word, lowercase word)]
  have hsuffixes : knownSuffixes ++ ["-" ++ word] = pairs.map Prod.fst := rfl
  have hwords : knownQualifiers ++ [lowercase word] = pairs.map Prod.snd := rfl
  have hmarks : ∀ pair ∈ pairs, Marks pair.1 pair.2 := by
    intro pair hpair
    rcases List.mem_append.mp hpair with hknown | hother
    · exact marks_of_mem_zip pair hknown
    · rw [List.mem_singleton.mp hother]
      exact hword.marks
  have hordered := pairwise_knownQualifiers hword.other
  rw [hwords, List.pairwise_map] at hordered
  rw [hsuffixes, List.map_map, List.pairwise_map]
  refine hordered.imp_of_mem fun {former later} hformer hlater hlt => ?_
  exact ((hmarks former hformer).compare_eq hrelease (hmarks later hlater)).trans hlt

/-- A suffix is compared with nothing if it stands behind one of two releases that are the same. -/
theorem compare_append_self (hsuffix : IsSuffix suffix.toList) :
    compare (release ++ suffix) release = compareItems (itemsOf suffix.toList) [] := by
  have hnone : IsSuffix "".toList := ⟨nofun, nofun⟩
  have hcompare := compare_append_append hrelease hsuffix hnone
  rwa [String.append_empty] at hcompare

/-- A suffix of a single item is older or newer than nothing as the item is. -/
theorem compare_append_item {item : Item} (hsuffix : IsSuffix suffix.toList)
    (hitem : itemsOf suffix.toList = [item]) :
    compare (release ++ suffix) release = compareItem item item.absentBeside := by
  rw [compare_append_self hrelease hsuffix, hitem, compareItems, compareItems, Ordering.then_eq]

end Marking

theorem eq_append_of_isSnapshot {version : String} (h : isSnapshot version = true) :
    version = stripSnapshot version ++ snapshotSuffix := by
  obtain ⟨front, hfront⟩ := List.isSuffixOf_iff_suffix.mp h
  have hafter : afterStart? snapshotSuffix.toList.reverse version.toList.reverse =
      some front.reverse := by
    rw [afterStart?_eq_some_iff, ← List.reverse_append, hfront]
  rw [stripSnapshot, hafter, ← String.toList_inj, String.toList_append, String.toList_ofList,
    List.reverse_reverse, hfront]

/-- The versions around a release. -/
structure IsSurrounded (release : String) : Prop where
  /-- Each of these versions is older than all that follow. -/
  pairwise : ∀ word, IsOtherWord word →
    [release ++ "-alpha", release ++ "-beta", release ++ "-milestone", release ++ "-rc",
      release ++ "-SNAPSHOT", release, release ++ "-sp", release ++ "-" ++ word].Pairwise
        fun older newer => compare older newer = .lt
  zero : compare (release ++ ".0") release = .eq
  final : compare (release ++ "-final") release = .eq
  /-- Every snapshot of the release is older. -/
  snapshot : ∀ version, isSnapshot version = true → stripSnapshot version = release →
    compare version release = .lt

/-- Whatever a version is made of, its suffixes stand around it in one order. Blank characters at
its end would become a part of its last word, or a word of their own, once a suffix follows them. -/
theorem isSurrounded_of_unblank {release : String}
    (hrelease : ∀ c ∈ release.toList.getLast?, isBlank c = false) : IsSurrounded release := by
  have hzero : itemsOf ".0".toList = [.number 0] := by decide +kernel
  have hfinal : itemsOf "-final".toList = [.qualifier "final"] := by decide +kernel
  have hsnapshot : itemsOf snapshotSuffix.toList = [.qualifier "snapshot"] := by decide +kernel
  refine ⟨fun word hword => ?_, compare_append_item hrelease (isSuffix_of_all rfl rfl) hzero,
    compare_append_item hrelease (isSuffix_of_all rfl rfl) hfinal, ?_⟩
  · have hordered := pairwise_knownSuffixes hrelease hword
    simpa [knownSuffixes, snapshotSuffix, String.append_assoc] using hordered
  · rintro version hversion rfl
    have hitem := compare_append_item hrelease (isSuffix_of_all rfl rfl) hsnapshot
    rw [← eq_append_of_isSnapshot hversion] at hitem
    exact hitem

/-- A release with blank characters in front, other letters and separators at its end. -/
theorem isSurrounded_sample :
    (∀ c ∈ " 07.Ünï--".toList.getLast?, isBlank c = false) ∧ IsOtherWord "Jre" ∧
      compare " 07.Ünï---SNAPSHOT" " 07.Ünï--" = .lt ∧
      compare (" 07.Ünï--" ++ "-sp") (" 07.Ünï--" ++ "-" ++ "Jre") = .lt := by
  have hrelease : ∀ c ∈ " 07.Ünï--".toList.getLast?, isBlank c = false := by
    intro c hc
    obtain rfl : '-' = c := by simpa using hc
    rfl
  have hword : IsOtherWord "Jre" := ⟨List.all_eq_true.mp (by decide), by decide +kernel⟩
  have hsurrounded := isSurrounded_of_unblank hrelease
  refine ⟨hrelease, hword, hsurrounded.snapshot _ (by decide) (by decide), ?_⟩
  -- The last two of the eight versions.
  have hlast := (hsurrounded.pairwise "Jre" hword).of_cons.of_cons.of_cons.of_cons.of_cons.of_cons
  exact List.rel_of_pairwise_cons hlast List.mem_cons_self

end ReleaseNotes.Version
