import Mathlib.Data.List.SplitBy
import Mathlib.Data.List.TakeWhile
import ReleaseNotes.Proofs.Text.Digits
import ReleaseNotes.Proofs.Text.Lowering
import ReleaseNotes.Version

/-!
Cutting a version into items. Separators are left out, and digits or other characters in a row make
up one item when they can go on no further. A text can hence be read from its start, one separator
or one whole run at a time, and a text that is joined where an item ends has the items of its parts.
-/

namespace ReleaseNotes.Version

open Text

def itemsOf (chars : List Char) : List Item :=
  ((chars.splitOnP isSeparator).flatMap runs).map Item.ofRun

theorem items_eq (version : String) : items version = itemsOf (trimChars version.toList) := rfl

structure IsRun (digits : Bool) (run : List Char) : Prop where
  ne_nil : run ≠ []
  isDigit_eq : ∀ c ∈ run, c.isDigit = digits
  isSeparator_eq : ∀ c ∈ run, isSeparator c = false

def Stops (digits : Bool) (rest : List Char) : Prop :=
  ∀ c ∈ rest.head?, isSeparator c = true ∨ c.isDigit ≠ digits

theorem isSeparator_of_isDigit {c : Char} (h : c.isDigit = true) : isSeparator c = false := by
  cases hseparator : isSeparator c with
  | false => rfl
  | true =>
    simp only [isSeparator, Bool.or_eq_true, beq_iff_eq] at hseparator
    rcases hseparator with (rfl | rfl) | rfl <;> contradiction

theorem isBlank_of_isSeparator {c : Char} (h : isSeparator c = true) : isBlank c = false := by
  simp only [isSeparator, Bool.or_eq_true, beq_iff_eq] at h
  rcases h with (rfl | rfl) | rfl <;> rfl

theorem isRun_of_isDigits {run : List Char} (h : isDigits run = true) : IsRun true run := by
  rw [isDigits, Bool.and_eq_true, List.all_eq_true] at h
  obtain ⟨hne, hdigits⟩ := h
  exact ⟨by simpa using hne, hdigits, fun c hc => isSeparator_of_isDigit (hdigits c hc)⟩

theorem stops_nil (digits : Bool) : Stops digits [] := by
  intro c hc
  simp at hc

theorem stops_separator_cons (digits : Bool) {c : Char} (h : isSeparator c = true)
    (rest : List Char) : Stops digits (c :: rest) := by
  intro d hd
  obtain rfl : c = d := by simpa using hd
  exact Or.inl h

theorem itemsOf_nil : itemsOf [] = [] := rfl

theorem itemsOf_separator_cons {c : Char} (h : isSeparator c = true) (rest : List Char) :
    itemsOf (c :: rest) = itemsOf rest := by
  unfold itemsOf
  rw [List.splitOnP_cons_eq_if_modifyHead, if_pos h]
  rfl

theorem splitOnP_append {run : List Char} (h : ∀ c ∈ run, isSeparator c = false)
    (rest : List Char) :
    (run ++ rest).splitOnP isSeparator =
      (rest.splitOnP isSeparator).modifyHead (run ++ ·) := by
  induction run with
  | nil =>
    rw [List.nil_append]
    exact (congrFun List.modifyHead_id _).symm
  | cons c run ih =>
    obtain ⟨hc, hrun⟩ := List.forall_mem_cons.mp h
    rw [List.cons_append, List.splitOnP_cons_eq_if_modifyHead, hc, ih hrun,
      List.modifyHead_modifyHead]
    rfl

/-- The first part before a separator begins as the text does, unless it is empty. -/
theorem head?_of_splitOnP {rest part : List Char} {parts : List (List Char)}
    (h : rest.splitOnP isSeparator = part :: parts) {c : Char} (hc : c ∈ part.head?) :
    c ∈ rest.head? ∧ isSeparator c = false := by
  cases rest with
  | nil =>
    rw [List.splitOnP_nil] at h
    obtain ⟨rfl, rfl⟩ := List.cons.inj h
    simp at hc
  | cons d rest =>
    rw [List.splitOnP_cons_eq_if_modifyHead] at h
    split at h
    · obtain ⟨rfl, rfl⟩ := List.cons.inj h
      simp at hc
    · rename_i hd
      obtain ⟨first, others, hfirst⟩ := List.exists_cons_of_ne_nil
        (List.splitOnP_ne_nil isSeparator rest)
      rw [hfirst, List.modifyHead_cons] at h
      obtain ⟨rfl, rfl⟩ := List.cons.inj h
      obtain rfl : d = c := by simpa using hc
      exact ⟨rfl, by simpa using hd⟩

theorem runs_append {digits : Bool} {run : List Char} (hrun : IsRun digits run) {part : List Char}
    (hpart : ∀ c ∈ part.head?, c.isDigit ≠ digits) : runs (run ++ part) = run :: runs part := by
  have hchain : run.IsChain fun c d => (c.isDigit == d.isDigit) = true := by
    apply List.Pairwise.isChain
    apply List.pairwise_of_forall_mem_list
    intro c hc d hd
    rw [hrun.isDigit_eq c hc, hrun.isDigit_eq d hd]
    exact beq_self_eq_true digits
  unfold runs
  rw [List.splitBy_append, List.splitBy_of_isChain hrun.ne_nil hchain, List.singleton_append]
  intro c hc d hd
  rw [hrun.isDigit_eq c (List.mem_of_getLast? hc), beq_eq_false_iff_ne]
  exact (hpart d hd).symm

/-- A run that goes on no further is the first item. -/
theorem itemsOf_run_append {digits : Bool} {run rest : List Char} (hrun : IsRun digits run)
    (hstops : Stops digits rest) : itemsOf (run ++ rest) = Item.ofRun run :: itemsOf rest := by
  obtain ⟨part, parts, hparts⟩ := List.exists_cons_of_ne_nil
    (List.splitOnP_ne_nil isSeparator rest)
  have hpart : ∀ c ∈ part.head?, c.isDigit ≠ digits := by
    intro c hc
    obtain ⟨hrest, hseparator⟩ := head?_of_splitOnP hparts hc
    rcases hstops c hrest with hsep | hkind
    · rw [hsep] at hseparator
      contradiction
    · exact hkind
  unfold itemsOf
  rw [splitOnP_append hrun.isSeparator_eq, hparts, List.modifyHead_cons, List.flatMap_cons,
    runs_append hrun hpart, List.flatMap_cons]
  rfl

/-- A text that does not begin with a separator begins with a whole run. -/
theorem exists_run_append {c : Char} (hc : isSeparator c = false) (chars : List Char) :
    ∃ run rest, c :: chars = run ++ rest ∧ IsRun c.isDigit run ∧ Stops c.isDigit rest := by
  let goesOn (d : Char) : Bool := !isSeparator d && d.isDigit == c.isDigit
  have hfirst : goesOn c = true := by simp [goesOn, hc]
  refine ⟨(c :: chars).takeWhile goesOn, (c :: chars).dropWhile goesOn,
    (List.takeWhile_append_dropWhile).symm, ⟨?_, ?_, ?_⟩, ?_⟩
  · rw [List.takeWhile_cons_of_pos hfirst]
    exact List.cons_ne_nil _ _
  · intro d hd
    have hgoes : goesOn d = true := List.mem_takeWhile_imp hd
    simp only [goesOn, Bool.and_eq_true, beq_iff_eq] at hgoes
    exact hgoes.2
  · intro d hd
    have hgoes : goesOn d = true := List.mem_takeWhile_imp hd
    simp only [goesOn, Bool.and_eq_true, Bool.not_eq_true'] at hgoes
    exact hgoes.1
  · intro d hd
    have hends := List.head?_dropWhile_not goesOn (c :: chars)
    rw [hd] at hends
    have hstop : goesOn d = false := by simpa using hends
    simp only [goesOn, Bool.and_eq_false_iff, Bool.not_eq_false', beq_eq_false_iff_ne] at hstop
    exact hstop

/-- Reading a text from its start, by separators and whole runs. -/
theorem runs_induction {motive : List Char → Prop} (nil : motive [])
    (separator : ∀ c rest, isSeparator c = true → motive rest → motive (c :: rest))
    (run : ∀ digits run rest, IsRun digits run → Stops digits rest → motive rest →
      motive (run ++ rest))
    (chars : List Char) : motive chars := by
  -- The induction is on the length, as a run may have any number of characters.
  induction hsize : chars.length using Nat.strong_induction_on generalizing chars with
  | h size ih =>
    cases chars with
    | nil => exact nil
    | cons c chars =>
      cases hc : isSeparator c with
      | true =>
        apply separator c chars hc
        exact ih chars.length (by simp [← hsize]) chars rfl
      | false =>
        obtain ⟨front, rest, heq, hrun, hstops⟩ := exists_run_append hc chars
        rw [heq] at hsize ⊢
        have hpositive := List.length_pos_iff.mpr hrun.ne_nil
        rw [List.length_append] at hsize
        exact run c.isDigit front rest hrun hstops (ih rest.length (by omega) rest rfl)

section Joining

/-- Between two texts an item ends: a separator is beside the gap, or digits meet other
characters. -/
def Breaks (before after : List Char) : Prop :=
  ∀ c ∈ before.getLast?, ∀ d ∈ after.head?,
    isSeparator c = true ∨ isSeparator d = true ∨ c.isDigit ≠ d.isDigit

theorem breaks_separator_cons {c : Char} (hc : isSeparator c = true) (before after : List Char) :
    Breaks before (c :: after) := by
  intro last _ d hd
  obtain rfl : c = d := by simpa using hd
  exact Or.inr (Or.inl hc)

theorem Breaks.of_append {first second after : List Char} (h : Breaks (first ++ second) after) :
    Breaks second after := by
  intro c hc
  apply h c
  rw [Option.mem_def] at hc ⊢
  rw [List.getLast?_append, hc, Option.some_or]

/-- The last run before a gap stops there, and so do the runs before it. -/
theorem Breaks.stops {digits : Bool} {run rest after : List Char}
    (h : Breaks (run ++ rest) after) (hrun : IsRun digits run) (hstops : Stops digits rest) :
    Stops digits (rest ++ after) := by
  cases rest with
  | cons c rest => exact hstops
  | nil =>
    intro d hd
    rw [List.append_nil] at h
    have hlast := List.getLast?_eq_some_getLast hrun.ne_nil
    have hmem := List.getLast_mem hrun.ne_nil
    rcases h _ hlast d hd with hsep | hsep | hkind
    · rw [hrun.isSeparator_eq _ hmem] at hsep
      contradiction
    · exact Or.inl hsep
    · rw [hrun.isDigit_eq _ hmem] at hkind
      exact Or.inr hkind.symm

/-- A text that is joined where an item ends has the items of its two parts. -/
theorem itemsOf_append {before after : List Char} (h : Breaks before after) :
    itemsOf (before ++ after) = itemsOf before ++ itemsOf after := by
  induction before using runs_induction with
  | nil => rfl
  | separator c rest hc ih =>
    have hbreaks : Breaks ([c] ++ rest) after := h
    rw [List.cons_append, itemsOf_separator_cons hc, itemsOf_separator_cons hc,
      ih hbreaks.of_append]
  | run digits run rest hrun hstops ih =>
    rw [List.append_assoc, itemsOf_run_append hrun (h.stops hrun hstops),
      itemsOf_run_append hrun hstops, ih h.of_append, List.cons_append]

/-- The items of a text around a separator are those before it and those behind it. -/
theorem itemsOf_append_separator_cons {c : Char} (hc : isSeparator c = true)
    (before after : List Char) :
    itemsOf (before ++ c :: after) = itemsOf before ++ itemsOf after := by
  rw [itemsOf_append (breaks_separator_cons hc before after), itemsOf_separator_cons hc]

end Joining

section Case

theorem isSeparator_toLower (c : Char) : isSeparator c.toLower = isSeparator c := by
  rcases toLower_eq_self_or_eq_capital c with hsame | ⟨place, hplace, rfl⟩
  · rw [hsame]
  · have hletters : ∀ place < 26,
        isSeparator (capital place).toLower = isSeparator (capital place) := by decide
    exact hletters place hplace

theorem IsRun.map_toLower {digits : Bool} {run : List Char} (h : IsRun digits run) :
    IsRun digits (run.map Char.toLower) where
  ne_nil := by simpa using h.ne_nil
  isDigit_eq := by
    rw [List.forall_mem_map]
    exact fun c hc => (isDigit_toLower c).trans (h.isDigit_eq c hc)
  isSeparator_eq := by
    rw [List.forall_mem_map]
    exact fun c hc => (isSeparator_toLower c).trans (h.isSeparator_eq c hc)

theorem Stops.map_toLower {digits : Bool} {rest : List Char} (h : Stops digits rest) :
    Stops digits (rest.map Char.toLower) := by
  cases rest with
  | nil => exact h
  | cons c rest =>
    intro d hd
    obtain rfl : c.toLower = d := by simpa using hd
    rw [isSeparator_toLower, isDigit_toLower]
    exact h c rfl

end Case

section Items

/-- Digits are a number as long as it fits. -/
theorem ofRun_of_lt {run : List Char} (hrun : IsRun true run)
    (hlt : valueOfDigits run < UInt64.size) : Item.ofRun run = .number (valueOfDigits run) := by
  have hdigits : run.all Char.isDigit = true := List.all_eq_true.mpr hrun.isDigit_eq
  rw [Item.ofRun, hdigits, Bool.true_and, if_pos (decide_eq_true hlt)]

theorem lowerChar_of_isDigit {c : Char} (h : c.isDigit = true) :
    c ≠ 'Σ' ∧ c ≠ 'İ' ∧ lowerChar c = c := by
  obtain ⟨-, hnat⟩ := toNat_bounds_of_isDigit h
  refine ⟨?_, ?_, ?_⟩
  · rintro rfl
    simp at hnat
  · rintro rfl
    simp at hnat
  · rw [lowerChar, if_pos (by omega)]
    rcases toLower_eq_or c with hsame | hletter
    · exact hsame
    · unfold Char.toLower at hletter ⊢
      split
      · rename_i hcapital
        have hge : 65 ≤ c.toNat := UInt32.le_iff_toNat_le.mp hcapital.1
        omega
      · rfl

/-- A number that is too long is a word of digits. -/
theorem ofRun_of_le {run : List Char} (hrun : IsRun true run)
    (hle : UInt64.size ≤ valueOfDigits run) : Item.ofRun run = .qualifier (String.ofList run) := by
  have hsame : lowerChars run = run :=
    lowerFrom_of_same (fun c hc => lowerChar_of_isDigit (hrun.isDigit_eq c hc)) []
  have hlong : decide (valueOfDigits run < UInt64.size) = false := decide_eq_false (by omega)
  rw [Item.ofRun, hlong, Bool.and_false, if_neg Bool.false_ne_true, hsame]

theorem ofList_ne_of_isRun {run : List Char} (hrun : IsRun true run) {word : String}
    (hword : word.toList.all (fun c => !c.isDigit) = true) : String.ofList run ≠ word := by
  rintro rfl
  obtain ⟨c, hc⟩ := List.exists_mem_of_ne_nil run hrun.ne_nil
  rw [String.toList_ofList, List.all_eq_true] at hword
  have hletter := hword c hc
  rw [hrun.isDigit_eq c hc] at hletter
  contradiction

theorem ofRun_of_word {run : List Char} (hrun : IsRun false run) :
    Item.ofRun run = .qualifier (lowercase (String.ofList run)) := by
  obtain ⟨c, others, rfl⟩ := List.exists_cons_of_ne_nil hrun.ne_nil
  have hword : (c :: others).all Char.isDigit = false := by
    rw [List.all_cons, hrun.isDigit_eq c List.mem_cons_self, Bool.false_and]
  rw [Item.ofRun, hword, Bool.false_and, if_neg Bool.false_ne_true, lowercase,
    String.toList_ofList]

/-- Letter case does not matter to an item. -/
theorem ofRun_map_toLower {digits : Bool} {run : List Char} (hrun : IsRun digits run) :
    Item.ofRun (run.map Char.toLower) = Item.ofRun run := by
  cases digits with
  | false =>
    rw [ofRun_of_word hrun, ofRun_of_word hrun.map_toLower, lowercase, lowercase,
      String.toList_ofList, String.toList_ofList, lowerChars_map_toLower]
  | true =>
    -- No digit is a letter, so nothing is changed.
    have hdigit : ∀ c ∈ run, c.toLower = c := by
      intro c hc
      refine (toLower_eq_self_or_eq_capital c).resolve_right ?_
      rintro ⟨place, hplace, rfl⟩
      have hletters : ∀ place < 26, (capital place).isDigit = false := by decide
      have hletter := hrun.isDigit_eq _ hc
      rw [hletters place hplace] at hletter
      contradiction
    rw [List.map_congr_left hdigit, List.map_id']

/-- The case of letters of ASCII does not matter to the items. -/
theorem itemsOf_map_toLower (chars : List Char) :
    itemsOf (chars.map Char.toLower) = itemsOf chars := by
  induction chars using runs_induction with
  | nil => rfl
  | separator c rest hc ih =>
    have hlower : isSeparator c.toLower = true := (isSeparator_toLower c).trans hc
    rw [List.map_cons, itemsOf_separator_cons hlower, itemsOf_separator_cons hc, ih]
  | run digits run rest hrun hstops ih =>
    rw [List.map_append, itemsOf_run_append hrun.map_toLower hstops.map_toLower,
      itemsOf_run_append hrun hstops, ofRun_map_toLower hrun, ih]

end Items

end ReleaseNotes.Version
