import ReleaseNotes.Proofs.Text.Lowering
import ReleaseNotes.Proofs.Text.Trimming

/-!
The words of a text, which stand between its blank characters. Blank characters at the ends make no
difference to the words, and lower-casing leaves all blank characters where they are.
-/

namespace ReleaseNotes.Text

section Surrounded

theorem trimChars_append_of_isBlank {tail : List Char} (h : ∀ c ∈ tail, isBlank c = true)
    (chars : List Char) : trimChars (chars ++ tail) = trimChars chars := by
  by_cases hchars : ∀ c ∈ chars, isBlank c = true
  · have hall : ∀ c ∈ chars ++ tail, isBlank c = true := by
      intro c hc
      exact (List.mem_append.mp hc).elim (hchars c) (h c)
    rw [trimChars_eq_nil_iff.mpr hall, trimChars_eq_nil_iff.mpr hchars]
  · have hdrop : dropBlank (chars ++ tail) = dropBlank chars ++ tail := by
      rw [dropBlank, List.dropWhile_append, if_neg]
      · rfl
      · rw [List.isEmpty_iff, List.dropWhile_eq_nil_iff]
        exact hchars
    rw [trimChars, hdrop, dropTrailing_append_of_all _ h, ← trimChars]

theorem trimChars_of_isBlank_append {start : List Char} (h : ∀ c ∈ start, isBlank c = true)
    (chars : List Char) : trimChars (start ++ chars) = trimChars chars := by
  rw [trimChars, dropBlank, List.dropWhile_append_of_pos h, ← dropBlank, ← trimChars]

/-- A text is its trimmed form with blank characters around it. -/
theorem exists_eq_append_trimChars (chars : List Char) :
    ∃ start tail, (∀ c ∈ start, isBlank c = true) ∧ (∀ c ∈ tail, isBlank c = true) ∧
      chars = start ++ (trimChars chars ++ tail) := by
  obtain ⟨tail, hsplit, htail⟩ := exists_append_dropTrailing isBlank (dropBlank chars)
  refine ⟨chars.takeWhile isBlank, tail, fun c hc => List.mem_takeWhile_imp hc, htail, ?_⟩
  rw [trimChars, ← hsplit]
  exact List.takeWhile_append_dropWhile.symm

end Surrounded

def words (chars : List Char) : List (List Char) :=
  (chars.splitOnP isBlank).filter fun word => word != []

/-- The last word of a text. A blank text has the empty one. -/
def lastWord (text : String) : String := String.ofList ((words text.toList).getLastD [])

def beforeLastWord (text : String) : String :=
  String.ofList (dropTrailing (fun c => !isBlank c) (trimChars text.toList))

section Words

variable {blank : Char} {chars word : List Char}

/-- The words of a text around a blank are those before it and those behind it. -/
theorem words_append_cons (hblank : isBlank blank = true) (chars others : List Char) :
    words (chars ++ blank :: others) = words chars ++ words others := by
  unfold words
  rw [List.splitOnP_append_cons chars others hblank, List.filter_append]

theorem words_of_isBlank (h : ∀ c ∈ chars, isBlank c = true) : words chars = [] := by
  induction chars with
  | nil => rfl
  | cons c chars ih =>
    obtain ⟨hc, hchars⟩ := List.forall_mem_cons.mp h
    have hsplit := words_append_cons hc [] chars
    rw [List.nil_append, ih hchars, List.append_nil] at hsplit
    exact hsplit

theorem words_of_unblank (hne : word ≠ []) (h : ∀ c ∈ word, isBlank c = false) :
    words word = [word] := by
  rw [words, List.splitOnP_eq_singleton h]
  simp [hne]

theorem words_append_of_isBlank {tail : List Char} (h : ∀ c ∈ tail, isBlank c = true)
    (chars : List Char) : words (chars ++ tail) = words chars := by
  cases tail with
  | nil => rw [List.append_nil]
  | cons c tail =>
    obtain ⟨hc, htail⟩ := List.forall_mem_cons.mp h
    rw [words_append_cons hc, words_of_isBlank htail, List.append_nil]

theorem words_of_isBlank_append {start : List Char} (h : ∀ c ∈ start, isBlank c = true)
    (chars : List Char) : words (start ++ chars) = words chars := by
  induction start with
  | nil => rfl
  | cons c start ih =>
    obtain ⟨hc, hstart⟩ := List.forall_mem_cons.mp h
    have hsplit := words_append_cons hc [] (start ++ chars)
    rw [List.nil_append, ih hstart] at hsplit
    exact hsplit

theorem words_trimChars (chars : List Char) : words (trimChars chars) = words chars := by
  obtain ⟨start, tail, hstart, htail, hchars⟩ := exists_eq_append_trimChars chars
  calc
    words (trimChars chars) = words (start ++ (trimChars chars ++ tail)) := by
      rw [words_of_isBlank_append hstart, words_append_of_isBlank htail]
    _ = words chars := by rw [← hchars]

/-- The last word comes after the last blank character that is not at the end. -/
theorem toList_lastWord_of_append {text : String} {before : List Char}
    (hblank : isBlank blank = true) (hword : ∀ c ∈ word, isBlank c = false)
    (htext : trimChars text.toList = before ++ blank :: word) :
    (lastWord text).toList = word ∧ (beforeLastWord text).toList = before ++ [blank] := by
  have hne : word ≠ [] := by
    rintro rfl
    have hlast := (trimChars_eq_self_iff.mp (trimChars_trimChars text.toList)).2 blank
      (by simp [htext])
    exact Bool.false_ne_true (hlast.symm.trans hblank)
  constructor
  · rw [lastWord, ← words_trimChars, htext, words_append_cons hblank, words_of_unblank hne hword]
    simp
  · have hdrop : dropTrailing (fun c => !isBlank c) word = [] :=
      dropTrailing_eq_nil_iff.mpr fun c hc => by rw [hword c hc]; rfl
    rw [beforeLastWord, htext, dropTrailing_append_cons (by rw [hblank]; rfl), hdrop,
      String.toList_ofList]

/-- A text without blank characters inside has one word at most. -/
theorem toList_lastWord_of_unblank {text : String}
    (h : ∀ c ∈ trimChars text.toList, isBlank c = false) :
    (lastWord text).toList = trimChars text.toList ∧ beforeLastWord text = "" := by
  constructor
  · by_cases hnil : trimChars text.toList = []
    · rw [lastWord, ← words_trimChars, hnil]
      rfl
    · rw [lastWord, ← words_trimChars, words_of_unblank hnil h]
      simp
  · have hdrop : dropTrailing (fun c => !isBlank c) (trimChars text.toList) = [] :=
      dropTrailing_eq_nil_iff.mpr fun c hc => by rw [h c hc]; rfl
    rw [beforeLastWord, hdrop]

end Words

section Lowering

theorem lowerChars_append_of_isBlank {tail : List Char} (h : ∀ c ∈ tail, isBlank c = true)
    (chars : List Char) : lowerChars (chars ++ tail) = lowerChars chars ++ tail := by
  cases tail with
  | nil => rw [List.append_nil, List.append_nil]
  | cons c tail =>
    obtain ⟨hc, htail⟩ := List.forall_mem_cons.mp h
    rw [lowerChars_append_cons hc, lowerChars, lowerChars, lowerFrom_of_isBlank htail]

theorem lowerChars_of_isBlank_append {start : List Char} (h : ∀ c ∈ start, isBlank c = true)
    (chars : List Char) : lowerChars (start ++ chars) = start ++ lowerChars chars := by
  induction start with
  | nil => rfl
  | cons c start ih =>
    obtain ⟨hc, hstart⟩ := List.forall_mem_cons.mp h
    have hsplit := lowerChars_append_cons hc [] (start ++ chars)
    rw [ih hstart] at hsplit
    exact hsplit

/-- A text can be trimmed before it is lowered or afterwards, with the same result. -/
theorem trimChars_lowerChars_trimChars (chars : List Char) :
    trimChars (lowerChars (trimChars chars)) = trimChars (lowerChars chars) := by
  obtain ⟨start, tail, hstart, htail, hchars⟩ := exists_eq_append_trimChars chars
  calc
    trimChars (lowerChars (trimChars chars)) =
        trimChars (lowerChars (start ++ (trimChars chars ++ tail))) := by
      rw [lowerChars_of_isBlank_append hstart, lowerChars_append_of_isBlank htail,
        trimChars_of_isBlank_append hstart, trimChars_append_of_isBlank htail]
    _ = trimChars (lowerChars chars) := by rw [← hchars]

end Lowering

end ReleaseNotes.Text
