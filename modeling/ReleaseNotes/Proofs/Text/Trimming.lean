import Mathlib.Data.List.TakeWhile
import ReleaseNotes.Text.Separated

/-!
What trimming and splitting keep. A trimmed text is a part of the text without blank characters at
its ends, so trimming twice is trimming once, and only a blank text has nothing left. The items of a
list are its texts that are not blank, trimmed. Splitting makes no new characters, and no part has
the separator, so items without the separator can be joined by it and split again.
-/

namespace ReleaseNotes.Text

theorem dropTrailing_cons_of_eq_nil {p : Char → Bool} (c : Char) {rest : List Char}
    (h : dropTrailing p rest = []) :
    dropTrailing p (c :: rest) = if p c then [] else [c] := by
  rw [dropTrailing, h]

theorem dropTrailing_cons_of_ne_nil {p : Char → Bool} (c : Char) {rest : List Char}
    (h : dropTrailing p rest ≠ []) :
    dropTrailing p (c :: rest) = c :: dropTrailing p rest := by
  rw [dropTrailing]
  split
  · contradiction
  · rfl

theorem dropTrailing_isPrefix (p : Char → Bool) (chars : List Char) :
    dropTrailing p chars <+: chars := by
  induction chars with
  | nil => exact List.prefix_rfl
  | cons c rest ih =>
    by_cases hrest : dropTrailing p rest = []
    · rw [dropTrailing_cons_of_eq_nil c hrest]
      split
      · exact List.nil_prefix
      · exact (List.prefix_cons_inj c).mpr List.nil_prefix
    · rw [dropTrailing_cons_of_ne_nil c hrest]
      exact (List.prefix_cons_inj c).mpr ih

theorem dropTrailing_eq_nil_iff {p : Char → Bool} {chars : List Char} :
    dropTrailing p chars = [] ↔ ∀ c ∈ chars, p c = true := by
  induction chars with
  | nil => simp [dropTrailing]
  | cons c rest ih =>
    rw [List.forall_mem_cons, ← ih]
    by_cases hrest : dropTrailing p rest = []
    · rw [dropTrailing_cons_of_eq_nil c hrest]
      simp [hrest]
    · rw [dropTrailing_cons_of_ne_nil c hrest]
      simp [hrest]

/-- What is dropped at the end. -/
theorem exists_append_dropTrailing (p : Char → Bool) (chars : List Char) :
    ∃ tail, chars = dropTrailing p chars ++ tail ∧ ∀ c ∈ tail, p c = true := by
  induction chars with
  | nil => exact ⟨[], rfl, List.forall_mem_nil _⟩
  | cons c rest ih =>
    obtain ⟨tail, hsplit, htail⟩ := ih
    by_cases hrest : dropTrailing p rest = []
    · rw [dropTrailing_cons_of_eq_nil c hrest]
      by_cases hc : p c = true
      · refine ⟨c :: rest, by rw [if_pos hc, List.nil_append], ?_⟩
        exact List.forall_mem_cons.mpr ⟨hc, dropTrailing_eq_nil_iff.mp hrest⟩
      · refine ⟨rest, by rw [if_neg hc, List.singleton_append], ?_⟩
        exact dropTrailing_eq_nil_iff.mp hrest
    · refine ⟨tail, ?_, htail⟩
      rw [dropTrailing_cons_of_ne_nil c hrest, List.cons_append, ← hsplit]

theorem dropTrailing_append_cons {p : Char → Bool} {c : Char} (hc : p c = false)
    (before after : List Char) :
    dropTrailing p (before ++ c :: after) = before ++ c :: dropTrailing p after := by
  induction before with
  | nil =>
    by_cases hafter : dropTrailing p after = []
    · rw [List.nil_append, dropTrailing_cons_of_eq_nil c hafter, hc, hafter]
      rfl
    · exact dropTrailing_cons_of_ne_nil c hafter
  | cons first before ih =>
    have hne : dropTrailing p (before ++ c :: after) ≠ [] := by simp [ih]
    rw [List.cons_append, dropTrailing_cons_of_ne_nil first hne, ih, List.cons_append]

theorem dropTrailing_dropTrailing (p : Char → Bool) (chars : List Char) :
    dropTrailing p (dropTrailing p chars) = dropTrailing p chars := by
  induction chars with
  | nil => rfl
  | cons c rest ih =>
    by_cases hrest : dropTrailing p rest = []
    · rw [dropTrailing_cons_of_eq_nil c hrest]
      by_cases hc : p c = true
      · rw [if_pos hc]
        rfl
      · rw [if_neg hc, dropTrailing_cons_of_eq_nil c rfl, if_neg hc]
    · rw [dropTrailing_cons_of_ne_nil c hrest, dropTrailing_cons_of_ne_nil c (by rwa [ih]), ih]

theorem isBlank_of_head?_dropBlank {chars : List Char} {c : Char}
    (h : (dropBlank chars).head? = some c) : isBlank c = false := by
  have hhead := List.head?_dropWhile_not isBlank chars
  rw [← dropBlank, h] at hhead
  exact hhead

theorem dropBlank_of_head? {chars : List Char} {c : Char} (h : chars.head? = some c)
    (hc : isBlank c = false) : dropBlank chars = chars := by
  obtain ⟨rest, rfl⟩ := List.head?_eq_some_iff.mp h
  exact List.dropWhile_cons_of_neg (by simp [hc])

/-- What begins as a text without blank characters at its start has none at its start either. -/
theorem dropBlank_of_isPrefix {kept chars : List Char} (h : kept <+: dropBlank chars) :
    dropBlank kept = kept := by
  cases kept with
  | nil => rfl
  | cons c rest =>
    obtain ⟨tail, heq⟩ := h
    have hhead : (dropBlank chars).head? = some c := by
      rw [← heq]
      rfl
    exact dropBlank_of_head? rfl (isBlank_of_head?_dropBlank hhead)

theorem trimChars_isPrefix (chars : List Char) : trimChars chars <+: dropBlank chars :=
  dropTrailing_isPrefix isBlank (dropBlank chars)

theorem trimChars_trimChars (chars : List Char) :
    trimChars (trimChars chars) = trimChars chars := by
  have hblank := dropBlank_of_isPrefix (trimChars_isPrefix chars)
  calc
    trimChars (trimChars chars) = dropTrailing isBlank (trimChars chars) := by
      rw [trimChars, hblank]
    _ = trimChars chars := dropTrailing_dropTrailing isBlank (dropBlank chars)

theorem mem_of_mem_dropBlank {chars : List Char} {c : Char} (h : c ∈ dropBlank chars) :
    c ∈ chars :=
  (List.dropWhile_sublist isBlank).subset h

theorem mem_of_mem_trimChars {chars : List Char} {c : Char} (h : c ∈ trimChars chars) :
    c ∈ chars :=
  mem_of_mem_dropBlank ((trimChars_isPrefix chars).subset h)

/-- Trimming takes away blank characters only. -/
theorem mem_trimChars {chars : List Char} {c : Char} (hc : isBlank c = false) (h : c ∈ chars) :
    c ∈ trimChars chars := by
  have hdrop : c ∈ dropBlank chars := by
    rw [← List.takeWhile_append_dropWhile (p := isBlank) (l := chars), List.mem_append] at h
    refine h.resolve_left fun hstart => ?_
    have hblank := List.mem_takeWhile_imp hstart
    rw [hc] at hblank
    contradiction
  obtain ⟨tail, hsplit, htail⟩ := exists_append_dropTrailing isBlank (dropBlank chars)
  rw [hsplit, List.mem_append] at hdrop
  refine hdrop.resolve_right fun hend => ?_
  have hblank := htail c hend
  rw [hc] at hblank
  contradiction

theorem trimChars_eq_nil_iff {chars : List Char} :
    trimChars chars = [] ↔ ∀ c ∈ chars, isBlank c = true := by
  rw [trimChars, dropTrailing_eq_nil_iff]
  constructor
  · intro h
    cases hdrop : dropBlank chars with
    | nil => exact List.dropWhile_eq_nil_iff.mp hdrop
    | cons c rest =>
      have hc : isBlank c = false := isBlank_of_head?_dropBlank (by rw [hdrop]; rfl)
      have hc' := h c (by simp [hdrop])
      simp [hc] at hc'
  · intro h c hc
    exact h c (mem_of_mem_dropBlank hc)

theorem dropTrailing_of_getLast? {p : Char → Bool} {chars : List Char}
    (h : ∀ c ∈ chars.getLast?, p c = false) : dropTrailing p chars = chars := by
  rcases List.eq_nil_or_concat chars with rfl | ⟨rest, last, rfl⟩
  · rfl
  · rw [List.concat_eq_append] at h ⊢
    exact dropTrailing_append_cons (h last (by simp)) rest []

theorem getLast?_of_dropTrailing {p : Char → Bool} {chars : List Char}
    (h : dropTrailing p chars = chars) : ∀ c ∈ chars.getLast?, p c = false := by
  rcases List.eq_nil_or_concat chars with rfl | ⟨rest, last, rfl⟩
  · simp
  · rw [List.concat_eq_append] at h ⊢
    intro c hc
    obtain rfl : last = c := by simpa using hc
    by_contra hlast
    have hall : ∀ d ∈ [last], p d = true := by simpa using hlast
    have hdrop := dropTrailing_append_of_all rest hall
    have hlength := (dropTrailing_isPrefix p rest).length_le
    rw [← hdrop, h, List.length_append, List.length_singleton] at hlength
    omega

/-- A text is trimmed if it has no blank characters at its ends, and only then. -/
theorem trimChars_eq_self_iff {chars : List Char} : trimChars chars = chars ↔
    (∀ c ∈ chars.head?, isBlank c = false) ∧ ∀ c ∈ chars.getLast?, isBlank c = false := by
  constructor
  · intro h
    have hstart : dropBlank chars = chars := by
      have hprefix := trimChars_isPrefix chars
      rw [h] at hprefix
      exact (List.dropWhile_suffix isBlank).eq_of_length_le hprefix.length_le
    rw [trimChars, hstart] at h
    refine ⟨fun c hc => ?_, getLast?_of_dropTrailing h⟩
    rw [← hstart] at hc
    exact isBlank_of_head?_dropBlank hc
  · rintro ⟨hstart, hend⟩
    have hdrop : dropBlank chars = chars := by
      cases chars with
      | nil => rfl
      | cons c rest => exact dropBlank_of_head? rfl (hstart c rfl)
    rw [trimChars, hdrop, dropTrailing_of_getLast? hend]

/-- A trimmed text stays trimmed if a part of it is replaced by one that brings no blank characters
to its ends. -/
theorem trimChars_of_replaced (before after : List Char) {part other : List Char}
    (hpart : part ≠ []) (hother : other ≠ [])
    (hfirst : isBlank (part.head hpart) = false → isBlank (other.head hother) = false)
    (hlast : isBlank (part.getLast hpart) = false → isBlank (other.getLast hother) = false)
    (h : trimChars (before ++ (part ++ after)) = before ++ (part ++ after)) :
    trimChars (before ++ (other ++ after)) = before ++ (other ++ after) := by
  rw [trimChars_eq_self_iff] at h ⊢
  obtain ⟨hstart, hend⟩ := h
  constructor
  · cases before with
    | cons c before => exact hstart
    | nil =>
      rw [List.nil_append, List.head?_append, List.head?_eq_some_head hpart,
        Option.some_or] at hstart
      rw [List.nil_append, List.head?_append, List.head?_eq_some_head hother, Option.some_or]
      exact fun c hc => Option.some.inj hc ▸ hfirst (hstart _ rfl)
  · rcases List.eq_nil_or_concat after with rfl | ⟨rest, last, rfl⟩
    · rw [List.append_nil, List.getLast?_append, List.getLast?_eq_some_getLast hpart,
        Option.some_or] at hend
      rw [List.append_nil, List.getLast?_append, List.getLast?_eq_some_getLast hother,
        Option.some_or]
      exact fun c hc => Option.some.inj hc ▸ hlast (hend _ rfl)
    · simpa using hend

theorem trimChars_of_forall {chars : List Char} (h : ∀ c ∈ chars, isBlank c = false) :
    trimChars chars = chars :=
  trimChars_eq_self_iff.mpr ⟨fun c hc => h c (List.mem_of_head? hc),
    fun c hc => h c (List.mem_of_getLast? hc)⟩

/-- Text without blank characters at its ends can be put behind text without any at its end. -/
theorem trimChars_append {chars tail : List Char}
    (hchars : ∀ c ∈ chars.getLast?, isBlank c = false)
    (hstart : ∀ c ∈ tail.head?, isBlank c = false)
    (hend : ∀ c ∈ tail.getLast?, isBlank c = false) :
    trimChars (chars ++ tail) = trimChars chars ++ tail := by
  have htail : dropBlank tail = tail := by
    cases tail with
    | nil => rfl
    | cons c rest => exact dropBlank_of_head? rfl (hstart c rfl)
  have hdrop : dropBlank (chars ++ tail) = dropBlank chars ++ tail := by
    rw [dropBlank, List.dropWhile_append, ← dropBlank, ← dropBlank, htail]
    split
    · rename_i hempty
      rw [List.isEmpty_iff.mp hempty, List.nil_append]
    · rfl
  obtain ⟨front, hfront⟩ : dropBlank chars <:+ chars := List.dropWhile_suffix isBlank
  have hkept : ∀ c ∈ (dropBlank chars).getLast?, isBlank c = false := by
    intro c hc
    apply hchars c
    rw [Option.mem_def] at hc ⊢
    rw [← hfront, List.getLast?_append, hc, Option.some_or]
  have hjoined : ∀ c ∈ (dropBlank chars ++ tail).getLast?, isBlank c = false := by
    intro c hc
    rw [List.getLast?_append, Option.mem_def, Option.or_eq_some_iff] at hc
    rcases hc with hlast | ⟨_, hlast⟩
    · exact hend c hlast
    · exact hkept c hlast
  rw [trimChars, hdrop, trimChars, dropTrailing_of_getLast? hkept, dropTrailing_of_getLast? hjoined]

@[simp] theorem toList_trim (text : String) : (trim text).toList = trimChars text.toList :=
  String.toList_ofList

theorem trim_trim (text : String) : trim (trim text) = trim text := by
  rw [trim, toList_trim, trimChars_trimChars, ← trim]

/-- Nothing is left of a text exactly if it is blank. -/
theorem trim_eq_empty_iff {text : String} : trim text = "" ↔ isBlankText text = true := by
  rw [← String.toList_inj, toList_trim, isBlankText, List.all_eq_true]
  exact trimChars_eq_nil_iff

theorem isBlankText_trim (text : String) : isBlankText (trim text) = isBlankText text := by
  rw [Bool.eq_iff_iff, ← trim_eq_empty_iff, ← trim_eq_empty_iff, trim_trim]

theorem nonBlank?_eq_some_iff {text : Option String} {given : String} :
    nonBlank? text = some given ↔ text = some given ∧ isBlankText given = false := by
  rw [nonBlank?, Option.filter_eq_some_iff, Bool.not_eq_true']

def nonBlankItems (items : List String) : List String :=
  items.filter fun item => !isBlankText item

theorem trimmedItems_eq_map (items : List String) :
    trimmedItems items = (nonBlankItems items).map trim := by
  rw [trimmedItems, nonBlankItems, List.filter_map]
  congr 1
  apply List.filter_congr
  intro item _
  rw [Bool.eq_iff_iff, Function.comp_apply, bne_iff_ne, Ne, trim_eq_empty_iff, Bool.not_eq_true',
    Bool.not_eq_true]

def commaEntries (list : Option String) : List String := list.elim [] (splitAt ',')

theorem commaItems_eq_map (list : Option String) :
    commaItems list = (nonBlankItems (commaEntries list)).map trim := by
  cases list with
  | none => rfl
  | some text => exact trimmedItems_eq_map (splitAt ',' text)

/-- Trimmed items stay as they are. -/
theorem trimmedItems_trimmedItems (items : List String) :
    trimmedItems (trimmedItems items) = trimmedItems items := by
  have hfilter : nonBlankItems ((nonBlankItems items).map trim) =
      (nonBlankItems items).map trim := by
    apply List.filter_eq_self.mpr
    intro item hitem
    obtain ⟨given, hgiven, rfl⟩ := List.mem_map.mp hitem
    rw [isBlankText_trim]
    exact (List.mem_filter.mp hgiven).2
  have htwice : (trim ∘ trim) = trim := funext trim_trim
  rw [trimmedItems_eq_map, trimmedItems_eq_map, hfilter, List.map_map, htwice]

theorem mem_of_mem_splitOnP {p : Char → Bool} {chars part : List Char}
    (hpart : part ∈ chars.splitOnP p) : ∀ c ∈ part, c ∈ chars ∧ p c = false := by
  induction chars generalizing part with
  | nil =>
    rw [List.splitOnP_nil, List.mem_singleton] at hpart
    subst hpart
    exact nofun
  | cons first chars ih =>
    have hrest : ∀ part ∈ chars.splitOnP p, ∀ c ∈ part, c ∈ first :: chars ∧ p c = false :=
      fun part hpart c hc => (ih hpart c hc).imp_left (List.mem_cons_of_mem first)
    rw [List.splitOnP_cons_eq_if_modifyHead] at hpart
    split at hpart
    · rcases List.mem_cons.mp hpart with rfl | hpart
      · exact nofun
      · exact hrest part hpart
    · rename_i hfirst
      cases hsplit : chars.splitOnP p with
      | nil => simp [hsplit] at hpart
      | cons head others =>
        rw [hsplit, List.forall_mem_cons] at hrest
        rw [hsplit, List.modifyHead_cons, List.mem_cons] at hpart
        rcases hpart with rfl | hpart
        · exact List.forall_mem_cons.mpr ⟨⟨List.mem_cons_self, by simpa using hfirst⟩, hrest.1⟩
        · exact hrest.2 part hpart

/-- Splitting loses nothing but the separators. -/
theorem exists_mem_splitOnP {p : Char → Bool} {chars : List Char} {c : Char} (hc : c ∈ chars)
    (hkept : p c = false) : ∃ part ∈ chars.splitOnP p, c ∈ part := by
  induction chars with
  | nil => contradiction
  | cons first chars ih =>
    rw [List.splitOnP_cons_eq_if_modifyHead]
    split
    · rename_i hfirst
      rcases List.mem_cons.mp hc with rfl | hrest
      · rw [hkept] at hfirst
        contradiction
      · obtain ⟨part, hpart, hmem⟩ := ih hrest
        exact ⟨part, List.mem_cons_of_mem [] hpart, hmem⟩
    · cases hsplit : chars.splitOnP p with
      | nil => exact absurd hsplit (List.splitOnP_ne_nil p chars)
      | cons head others =>
        rw [hsplit] at ih
        rw [List.modifyHead_cons]
        rcases List.mem_cons.mp hc with rfl | hrest
        · exact ⟨c :: head, List.mem_cons_self, List.mem_cons_self⟩
        · obtain ⟨part, hpart, hmem⟩ := ih hrest
          rcases List.mem_cons.mp hpart with rfl | hpart
          · exact ⟨first :: part, List.mem_cons_self, List.mem_cons_of_mem first hmem⟩
          · exact ⟨part, List.mem_cons_of_mem _ hpart, hmem⟩

theorem notMem_of_mem_splitOn {separator : Char} {chars part : List Char}
    (h : part ∈ chars.splitOn separator) : separator ∉ part := by
  intro hmem
  have hne := (mem_of_mem_splitOnP h separator hmem).2
  simp at hne

/-- A part between separators has characters of the text, but not the separator. -/
theorem mem_of_mem_splitAt {separator : Char} {text part : String}
    (hpart : part ∈ splitAt separator text) {c : Char} (hc : c ∈ part.toList) :
    c ∈ text.toList ∧ c ≠ separator := by
  obtain ⟨chars, hchars, rfl⟩ := List.mem_map.mp hpart
  rw [String.toList_ofList] at hc
  have hmem := mem_of_mem_splitOnP hchars c hc
  simpa using hmem

/-- Items without the separator are the parts of the text that they make with it between them. -/
theorem splitAt_joinWith {c : Char} {separator : String} (hseparator : separator.toList = [c])
    {items : List String} (h : ∀ item ∈ items, c ∉ item.toList) (hne : items ≠ []) :
    splitAt c (joinWith separator items) = items := by
  have hparts : ∀ chars ∈ items.map String.toList, c ∉ chars := by simpa using h
  have hmap : items.map String.toList ≠ [] := by simpa using hne
  rw [splitAt, joinWith, String.toList_intercalate, hseparator,
    List.splitOn_intercalate c hparts hmap, List.map_map]
  simp [Function.comp_def]

/-- Items without commas are read back from the text that they make with commas between them. -/
theorem commaList_joinWith {items : List String} (h : ∀ item ∈ items, ',' ∉ item.toList) :
    commaList (joinWith "," items) = trimmedItems items := by
  by_cases hnil : items = []
  · -- No items make the empty text, which is read as one empty part.
    subst hnil
    decide
  · rw [commaList, splitAt_joinWith rfl h hnil]

end ReleaseNotes.Text
