import ReleaseNotes.Text.Blank
import ReleaseNotes.Text.Lowercase

/-!
What lower-casing does not make. The lower-case forms of letters come after the digits and most of
the punctuation, so what a lower-cased text has of these was in the text before. Blank characters
are no letters, so a lower-cased text is blank only if the text was, and what stands on the two
sides of one of them is lower-cased apart. The case of letters of ASCII does not matter: they are
cased in both forms, so even the form of a sigma beside them stays.
-/

namespace ReleaseNotes.Text

theorem toLower_eq_or (c : Char) : c.toLower = c ∨ 97 ≤ c.toLower.toNat := by
  by_cases h : c.val ≥ 'A'.val ∧ c.val ≤ 'Z'.val
  · right
    have hlower : c.toLower.val = c.val + 32 := congrArg Char.val (dif_pos h : c.toLower = _)
    have hlow : 65 ≤ c.val.toNat := UInt32.le_iff_toNat_le.mp h.1
    have hhigh : c.val.toNat ≤ 90 := UInt32.le_iff_toNat_le.mp h.2
    have hnat : c.toLower.toNat = (c.val.toNat + 32) % 2 ^ 32 := congrArg UInt32.toNat hlower
    omega
  · exact Or.inl (dif_neg h)

theorem toNat_ofNat_eq_or (n : Nat) : (Char.ofNat n).toNat = n ∨ (Char.ofNat n).toNat = 0 := by
  by_cases h : n.isValidChar
  · left
    have hvalid : Char.ofNat n = Char.ofNatAux n h := dif_pos h
    rw [hvalid]
    rfl
  · right
    have hinvalid : Char.ofNat n = '\x00' := dif_neg h
    rw [hinvalid]
    rfl

/-- No lower-case form in the table comes before the letters. -/
theorem le_first_add_shift : ∀ run ∈ lowerCaseRuns, 65 ≤ (run.first : Int) + run.shift := by
  decide +kernel

theorem first_le_of_contains {run : CaseRun} {n : Nat} (h : run.contains n = true) :
    run.first ≤ n := by
  simp only [CaseRun.contains, Bool.and_eq_true, decide_eq_true_eq] at h
  exact h.1.1

section

variable {d : Char} (hpositive : 0 < d.toNat) (hlt : d.toNat < 65)

include hpositive hlt

theorem eq_of_lowerChar_eq {c : Char} (h : lowerChar c = d) : d = c := by
  unfold lowerChar at h
  split at h
  · rcases toLower_eq_or c with hsame | hletter
    · exact h.symm.trans hsame
    · rw [h] at hletter
      omega
  · split at h
    · rename_i run hfind
      have hcontains : run.contains c.toNat = true := by simpa using List.find?_some hfind
      have hfirst := first_le_of_contains hcontains
      have hbound := le_first_add_shift run (List.mem_of_find?_eq_some hfind)
      have hnat := toNat_ofNat_eq_or ((c.toNat : Int) + run.shift).toNat
      rw [h] at hnat
      omega
    · exact h.symm

/-- Among lowered characters, one before the letters comes from nothing but itself. -/
theorem eq_of_mem_lowerIn {before after : List Char} {c : Char} (h : d ∈ lowerIn before c after) :
    d = c := by
  have hspecial : d ∉ ['ς', 'σ', 'i', '\u0307'] := by
    intro hmem
    have hge : ∀ letter ∈ ['ς', 'σ', 'i', '\u0307'], 65 ≤ letter.toNat := by simp
    have hd := hge d hmem
    omega
  unfold lowerIn at h
  split at h
  · split at h <;> simp_all
  · split at h
    · simp_all
    · exact eq_of_lowerChar_eq hpositive hlt (List.mem_singleton.mp h).symm

theorem mem_of_mem_lowerFrom {before chars : List Char} (h : d ∈ lowerFrom before chars) :
    d ∈ chars := by
  induction chars generalizing before with
  | nil => exact h
  | cons c chars ih =>
    rw [lowerFrom, List.mem_append] at h
    rcases h with hin | hrest
    · rw [eq_of_mem_lowerIn hpositive hlt hin]
      exact List.mem_cons_self
    · exact List.mem_cons_of_mem c (ih hrest)

theorem mem_of_mem_lowerChars {chars : List Char} (h : d ∈ lowerChars chars) : d ∈ chars :=
  mem_of_mem_lowerFrom hpositive hlt h

end

def blankNumbers : List Nat :=
  [ 0x9, 0xA, 0xB, 0xC, 0xD, 0x20, 0x85, 0xA0, 0x1680, 0x2000, 0x2001, 0x2002, 0x2003, 0x2004,
    0x2005, 0x2006, 0x2007, 0x2008, 0x2009, 0x200A, 0x2028, 0x2029, 0x202F, 0x205F, 0x3000 ]

theorem mem_blankNumbers {c : Char} (h : isBlank c = true) : c.toNat ∈ blankNumbers := by
  simp only [isBlank, Bool.or_eq_true, Bool.and_eq_true, decide_eq_true_eq, beq_iff_eq] at h
  simp only [blankNumbers, List.mem_cons, List.not_mem_nil, or_false]
  omega

theorem lowerChar_of_mem_blankNumbers : ∀ n ∈ blankNumbers,
    Char.ofNat n ≠ 'Σ' ∧ Char.ofNat n ≠ 'İ' ∧ lowerChar (Char.ofNat n) = Char.ofNat n := by
  decide +kernel

/-- Characters that are their own lower-case forms stay as they are. -/
theorem lowerFrom_of_same {chars : List Char}
    (h : ∀ c ∈ chars, c ≠ 'Σ' ∧ c ≠ 'İ' ∧ lowerChar c = c) (before : List Char) :
    lowerFrom before chars = chars := by
  induction chars generalizing before with
  | nil => rfl
  | cons c chars ih =>
    obtain ⟨⟨hsigma, hdotted, hsame⟩, hchars⟩ := List.forall_mem_cons.mp h
    rw [lowerFrom, lowerIn, if_neg hsigma, if_neg hdotted, hsame, ih hchars,
      List.singleton_append]

theorem lowerFrom_of_isBlank {chars : List Char} (h : ∀ c ∈ chars, isBlank c = true)
    (before : List Char) : lowerFrom before chars = chars := by
  apply lowerFrom_of_same
  intro c hc
  have hlower := lowerChar_of_mem_blankNumbers c.toNat (mem_blankNumbers (h c hc))
  rwa [Char.ofNat_toNat] at hlower

theorem lowercase_of_isBlankText {text : String} (h : isBlankText text = true) :
    lowercase text = text := by
  rw [lowercase, lowerChars, lowerFrom_of_isBlank (List.all_eq_true.mp h), String.ofList_toList]

theorem isBlankText_of_lowercase {text lower : String} (h : lowercase text = lower)
    (hlower : isBlankText lower = false) : isBlankText text = false := by
  cases hblank : isBlankText text with
  | false => rfl
  | true =>
    rw [← h, lowercase_of_isBlankText hblank, hblank] at hlower
    exact hlower

section Ascii

def capital (place : Nat) : Char := Char.ofNat (65 + place)

theorem toLower_eq_self_or_eq_capital (c : Char) :
    c.toLower = c ∨ ∃ place < 26, capital place = c := by
  by_cases h : c.val ≥ 'A'.val ∧ c.val ≤ 'Z'.val
  · have hlow : 65 ≤ c.toNat := UInt32.le_iff_toNat_le.mp h.1
    have hhigh : c.toNat ≤ 90 := UInt32.le_iff_toNat_le.mp h.2
    refine Or.inr ⟨c.toNat - 65, by omega, ?_⟩
    rw [capital, Nat.add_sub_cancel' hlow, Char.ofNat_toNat]
  · exact Or.inl (dif_neg h)

/-- Whatever looks at characters finds no difference between two of them. -/
structure IsAlike (c d : Char) : Prop where
  isCased_eq : isCased c = isCased d
  isCaseIgnorable_eq : isCaseIgnorable c = isCaseIgnorable d
  isBlank_eq : isBlank c = isBlank d
  isDigit_eq : c.isDigit = d.isDigit
  lowerIn_eq : ∀ before after, lowerIn before c after = lowerIn before d after

/-- A letter of ASCII is alike in both cases. -/
theorem isAlike_toLower (c : Char) : IsAlike c.toLower c := by
  rcases toLower_eq_self_or_eq_capital c with hsame | ⟨place, hplace, rfl⟩
  · rw [hsame]
    exact ⟨rfl, rfl, rfl, rfl, fun _ _ => rfl⟩
  · have hletters : ∀ place < 26,
        let c := capital place
        isCased c.toLower = isCased c ∧ isCaseIgnorable c.toLower = isCaseIgnorable c ∧
          isBlank c.toLower = isBlank c ∧ c.toLower.isDigit = c.isDigit ∧
          lowerChar c.toLower = lowerChar c ∧
          (c ≠ 'Σ' ∧ c ≠ 'İ') ∧ c.toLower ≠ 'Σ' ∧ c.toLower ≠ 'İ' := by
      decide +kernel
    obtain ⟨hcased, hignorable, hblank, hdigit, hlower, hplain, hsmall⟩ := hletters place hplace
    refine ⟨hcased, hignorable, hblank, hdigit, fun before after => ?_⟩
    rw [lowerIn, lowerIn, if_neg hplain.1, if_neg hplain.2, if_neg hsmall.1, if_neg hsmall.2,
      hlower]

theorem isBlank_toLower (c : Char) : isBlank c.toLower = isBlank c := (isAlike_toLower c).isBlank_eq

theorem isDigit_toLower (c : Char) : c.toLower.isDigit = c.isDigit := (isAlike_toLower c).isDigit_eq

theorem meetsCased_map_toLower (chars : List Char) :
    meetsCased (chars.map Char.toLower) = meetsCased chars := by
  have hcased : ∀ c : Char, isCased c.toLower = isCased c := fun c => (isAlike_toLower c).isCased_eq
  have hignorable : ∀ c : Char, isCaseIgnorable c.toLower = isCaseIgnorable c :=
    fun c => (isAlike_toLower c).isCaseIgnorable_eq
  simp only [meetsCased, List.find?_map, Option.any_map, Function.comp_def, hcased, hignorable]

theorem lowerIn_map_toLower (before : List Char) (c : Char) (after : List Char) :
    lowerIn (before.map Char.toLower) c.toLower (after.map Char.toLower) =
      lowerIn before c after := by
  rw [← (isAlike_toLower c).lowerIn_eq before after]
  unfold lowerIn
  rw [meetsCased_map_toLower, meetsCased_map_toLower]

/-- The case of letters of ASCII does not matter to the lower-case form. -/
theorem lowerFrom_map_toLower (before chars : List Char) :
    lowerFrom (before.map Char.toLower) (chars.map Char.toLower) = lowerFrom before chars := by
  induction chars generalizing before with
  | nil => rfl
  | cons c chars ih =>
    have hrest := ih (c :: before)
    rw [List.map_cons] at hrest
    rw [List.map_cons, lowerFrom, lowerFrom, lowerIn_map_toLower, hrest]

/-- Lowering the ASCII letters first makes no difference. -/
theorem lowerChars_map_toLower (chars : List Char) :
    lowerChars (chars.map Char.toLower) = lowerChars chars :=
  lowerFrom_map_toLower [] chars

end Ascii

section Blank

def blankFree : List (Nat × Nat) :=
  [ (0xA1, 0x167F), (0x3001, 0x10FFFF), (0x1681, 0x1FFF), (0x2060, 0x2FFF), (0x21, 0x84),
    (0x86, 0x9F), (0x200B, 0x2027), (0x202A, 0x202E), (0x2030, 0x205E) ]

theorem lt_or_lt_of_mem_blankFree : ∀ stretch ∈ blankFree, ∀ n ∈ blankNumbers,
    n < stretch.1 ∨ stretch.2 < n := by
  decide +kernel

/-- Neither letters nor what is ignored beside them are blank characters. -/
theorem exists_blankFree_range : ∀ range ∈ casedRanges ++ caseIgnorableRanges,
    ∃ stretch ∈ blankFree, stretch.1 ≤ range.1 ∧ range.2 ≤ stretch.2 := by
  decide +kernel

/-- No lower-case form in the table is a blank character. -/
theorem exists_blankFree_run : ∀ run ∈ lowerCaseRuns, ∃ stretch ∈ blankFree,
    (stretch.1 : Int) ≤ run.first + run.shift ∧ run.last + run.shift ≤ (stretch.2 : Int) := by
  decide +kernel

theorem le_last_of_contains {run : CaseRun} {n : Nat} (h : run.contains n = true) :
    n ≤ run.last := by
  simp only [CaseRun.contains, Bool.and_eq_true, decide_eq_true_eq] at h
  exact h.1.2

/-- Lowering makes no blanks and removes none. -/
theorem isBlank_lowerChar (c : Char) : isBlank (lowerChar c) = isBlank c := by
  cases hc : isBlank c with
  | true =>
    have hsame := (lowerChar_of_mem_blankNumbers c.toNat (mem_blankNumbers hc)).2.2
    rw [Char.ofNat_toNat] at hsame
    rw [hsame, hc]
  | false =>
    unfold lowerChar
    split
    · rw [isBlank_toLower, hc]
    · split
      · rename_i run hfind
        have hrun := List.mem_of_find?_eq_some hfind
        have hcontains : run.contains c.toNat = true := by simpa using List.find?_some hfind
        have hfirst := first_le_of_contains hcontains
        have hlast := le_last_of_contains hcontains
        cases hblank : isBlank (Char.ofNat ((c.toNat : Int) + run.shift).toNat) with
        | false => rfl
        | true =>
          have hmem := mem_blankNumbers hblank
          obtain ⟨stretch, hstretch, hlow, hhigh⟩ := exists_blankFree_run run hrun
          have hrange := lt_or_lt_of_mem_blankFree stretch hstretch _ hmem
          have hbound := le_first_add_shift run hrun
          have hzero : 0 ∉ blankNumbers := by decide
          rcases toNat_ofNat_eq_or ((c.toNat : Int) + run.shift).toNat with heq | heq
          · omega
          · rw [heq] at hmem
            contradiction
      · exact hc

theorem isBlank_of_mem_lowerIn {before after : List Char} {c d : Char}
    (h : d ∈ lowerIn before c after) : isBlank d = isBlank c := by
  unfold lowerIn at h
  split at h
  · rename_i hsigma
    subst hsigma
    split at h <;> rw [List.mem_singleton.mp h] <;> rfl
  · split at h
    · rename_i hdotted
      subst hdotted
      simp only [List.mem_cons, List.not_mem_nil, or_false] at h
      rcases h with rfl | rfl <;> rfl
    · rw [List.mem_singleton.mp h, isBlank_lowerChar]

theorem isBlank_of_mem_lowerFrom {before chars : List Char}
    (h : ∀ c ∈ chars, isBlank c = false) : ∀ c ∈ lowerFrom before chars, isBlank c = false := by
  induction chars generalizing before with
  | nil => exact nofun
  | cons c chars ih =>
    obtain ⟨hc, hchars⟩ := List.forall_mem_cons.mp h
    intro d hd
    rw [lowerFrom, List.mem_append] at hd
    rcases hd with hin | hrest
    · rw [isBlank_of_mem_lowerIn hin, hc]
    · exact ih hchars d hrest

theorem isBlank_of_mem_lowerChars {chars : List Char} (h : ∀ c ∈ chars, isBlank c = false) :
    ∀ c ∈ lowerChars chars, isBlank c = false :=
  isBlank_of_mem_lowerFrom h

theorem lowerIn_ne_nil (before : List Char) (c : Char) (after : List Char) :
    lowerIn before c after ≠ [] := by
  unfold lowerIn
  split
  · exact List.cons_ne_nil _ _
  · split <;> exact List.cons_ne_nil _ _

theorem exists_mem_lowerFrom {before chars : List Char} {c : Char} (h : c ∈ chars) :
    ∃ d ∈ lowerFrom before chars, isBlank d = isBlank c := by
  induction chars generalizing before with
  | nil => contradiction
  | cons first rest ih =>
    rcases List.mem_cons.mp h with rfl | hrest
    · obtain ⟨d, hd⟩ := List.exists_mem_of_ne_nil _ (lowerIn_ne_nil before c rest)
      exact ⟨d, List.mem_append_left _ hd, isBlank_of_mem_lowerIn hd⟩
    · obtain ⟨d, hd, hblank⟩ := ih hrest
      exact ⟨d, List.mem_append_right _ hd, hblank⟩

theorem isBlankText_lowercase {text : String} (h : isBlankText text = false) :
    isBlankText (lowercase text) = false := by
  rw [isBlankText, List.all_eq_false] at h
  obtain ⟨c, hc, hblank⟩ := h
  obtain ⟨d, hd, hsame⟩ := exists_mem_lowerFrom hc
  rw [isBlankText, List.all_eq_false, lowercase, String.toList_ofList]
  exact ⟨d, hd, hsame ▸ hblank⟩

variable {blank : Char} (hblank : isBlank blank = true)

include hblank

theorem inRanges_eq_false {ranges : List (Nat × Nat)}
    (hranges : ∀ range ∈ ranges, range ∈ casedRanges ++ caseIgnorableRanges) :
    inRanges ranges blank = false := by
  rw [inRanges, List.any_eq_false]
  intro range hrange
  obtain ⟨stretch, hstretch, hlow, hhigh⟩ := exists_blankFree_range range (hranges range hrange)
  have hout := lt_or_lt_of_mem_blankFree stretch hstretch blank.toNat (mem_blankNumbers hblank)
  simp only [Bool.and_eq_true, decide_eq_true_eq]
  omega

theorem isolated_of_isBlank : isCased blank = false ∧ isCaseIgnorable blank = false :=
  ⟨inRanges_eq_false hblank fun _ hrange => List.mem_append_left _ hrange,
    inRanges_eq_false hblank fun _ hrange => List.mem_append_right _ hrange⟩

/-- Letters are not seen across a blank character. -/
theorem meetsCased_append_cons (chars others : List Char) :
    meetsCased (chars ++ blank :: others) = meetsCased chars := by
  obtain ⟨hcased, hignorable⟩ := isolated_of_isBlank hblank
  unfold meetsCased
  rw [List.find?_append, List.find?_cons, hignorable]
  cases chars.find? fun c => !isCaseIgnorable c with
  | none => simp [hcased]
  | some c => rfl

theorem lowerIn_append_cons (before : List Char) (c : Char) (after others : List Char) :
    lowerIn before c (after ++ blank :: others) = lowerIn before c after := by
  unfold lowerIn
  rw [meetsCased_append_cons hblank]

theorem lowerIn_before_append_cons (before others : List Char) (c : Char) (after : List Char) :
    lowerIn (before ++ blank :: others) c after = lowerIn before c after := by
  unfold lowerIn
  rw [meetsCased_append_cons hblank]

theorem lowerFrom_before_append_cons (before others chars : List Char) :
    lowerFrom (before ++ blank :: others) chars = lowerFrom before chars := by
  induction chars generalizing before with
  | nil => rfl
  | cons c chars ih =>
    rw [lowerFrom, lowerFrom, lowerIn_before_append_cons hblank, ← List.cons_append, ih]

/-- What stands before a blank character and what follows it are lower-cased apart. -/
theorem lowerFrom_append_cons (before chars others : List Char) :
    lowerFrom before (chars ++ blank :: others) =
      lowerFrom before chars ++ blank :: lowerChars others := by
  induction chars generalizing before with
  | nil =>
    have hsame : lowerIn before blank others = [blank] := by
      have h := lowerChar_of_mem_blankNumbers blank.toNat (mem_blankNumbers hblank)
      rw [Char.ofNat_toNat] at h
      rw [lowerIn, if_neg h.1, if_neg h.2.1, h.2.2]
    have hrest := lowerFrom_before_append_cons hblank [] before others
    rw [List.nil_append] at hrest
    rw [List.nil_append, lowerFrom, lowerFrom, hsame, hrest]
    rfl
  | cons c chars ih =>
    rw [List.cons_append, lowerFrom, lowerIn_append_cons hblank, ih, lowerFrom, List.append_assoc]

/-- Parts of a text around a blank are lowered each by itself. -/
theorem lowerChars_append_cons (chars others : List Char) :
    lowerChars (chars ++ blank :: others) = lowerChars chars ++ blank :: lowerChars others :=
  lowerFrom_append_cons hblank [] chars others

end Blank

end ReleaseNotes.Text
