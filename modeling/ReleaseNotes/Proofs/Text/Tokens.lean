import ReleaseNotes.Proofs.Text.Cutting

/-!
The first occurrence of a token in a text is replaced if no other one begins before it. Whether one
does depends on little of what follows, if the token stands between two marks.
-/

namespace ReleaseNotes.Text

section Marked

variable {isMark : Char → Bool} {separator rest : List Char} {mark : Char}

/-- A text that ends in a character which does not occur in it before ends where the character
occurs. -/
theorem isPrefix_of_append_mark {middle : List Char} (hmiddle : mark ∉ middle)
    {chars other : List Char} (h : middle ++ [mark] <+: chars ++ mark :: other) :
    middle ++ [mark] <+: chars ++ [mark] := by
  have hstart : chars ++ [mark] <+: chars ++ mark :: other := ⟨other, by simp⟩
  rcases List.prefix_or_prefix_of_prefix h hstart with hwithin | hbeyond
  · exact hwithin
  · rcases List.prefix_concat_iff.mp hbeyond with heq | hbefore
    · exact heq ▸ List.prefix_rfl
    · exact absurd (hbefore.subset (List.mem_append_right _ List.mem_cons_self)) hmiddle

/-- Of what follows some characters, a separator between two marks needs no more than a mark. -/
theorem Uncut.of_mark {middle : List Char} (hmiddle : mark ∉ middle) {inside : Bool}
    {chars : List Char} (other : List Char)
    (h : Uncut isMark (mark :: (middle ++ [mark])) (mark :: rest) inside chars) :
    Uncut isMark (mark :: (middle ++ [mark])) (mark :: other) inside chars := by
  induction chars generalizing inside with
  | nil => trivial
  | cons c chars ih =>
    refine ⟨fun hinside hprefix => h.1 hinside ?_, ih h.2⟩
    obtain ⟨hc, hclosing⟩ := List.cons_prefix_cons.mp hprefix
    refine List.cons_prefix_cons.mpr ⟨hc, ?_⟩
    exact (isPrefix_of_append_mark hmiddle hclosing).trans ⟨rest, by simp⟩

/-- No separator that ends in a mark begins before a word without marks and ends in it or, if the
word has a character that the separator does not have, after it. -/
theorem Uncut.append_word {start word : List Char} (hmark : mark ∉ word)
    (hword : ∃ c ∈ word, c ∉ start ++ [mark]) {inside : Bool} {chars : List Char}
    (other : List Char) (h : Uncut isMark (start ++ [mark]) [] inside chars) :
    Uncut isMark (start ++ [mark]) (word ++ other) inside chars := by
  obtain ⟨c, hc, hother⟩ := hword
  obtain ⟨first, last, rfl⟩ := List.append_of_mem hc
  induction chars generalizing inside with
  | nil => trivial
  | cons d chars ih =>
    refine ⟨fun hinside hprefix => h.1 hinside ?_, ih h.2⟩
    have hsplit : d :: (chars ++ (first ++ c :: last ++ other)) =
        d :: chars ++ first ++ c :: (last ++ other) := by
      simp
    rw [hsplit] at hprefix
    have hwithin := isPrefix_of_append_cons hother hprefix
    rw [List.append_nil]
    rcases List.prefix_or_prefix_of_prefix hwithin (List.prefix_append (d :: chars) first) with
      hstart | hbeyond
    · exact hstart
    · rcases List.prefix_concat_iff.mp hbeyond with heq | ⟨more, rfl⟩
      · exact heq ▸ List.prefix_rfl
      · -- The mark at the end would be in the word.
        rw [List.append_assoc] at hwithin
        have hend := (List.prefix_append_right_inj (d :: chars)).mp hwithin
        have hmem := hend.subset (List.mem_append_right more List.mem_cons_self)
        exact absurd (List.mem_append_left _ hmem) hmark

end Marked

section Replacing

variable {token : List Char}

def unmarked : Char → Bool := fun _ => false

theorem uncut_unmarked_append {rest first second : List Char} :
    Uncut unmarked token rest false (first ++ second) ↔
      Uncut unmarked token (second ++ rest) false first ∧
        Uncut unmarked token rest false second := by
  have hopen : openAfter unmarked false first = false :=
    openAfter_of_unmarked false fun _ _ => rfl
  rw [uncut_append, hopen]

theorem uncut_of_forall_drop {chars rest : List Char}
    (h : ∀ n < chars.length, ¬token <+: (chars ++ rest).drop n) :
    Uncut unmarked token rest false chars := by
  induction chars with
  | nil => trivial
  | cons c chars ih =>
    refine ⟨fun _ => h 0 (Nat.succ_pos _), ih ?_⟩
    intro n hn
    exact h (n + 1) (Nat.succ_lt_succ hn)

/-- The first occurrence of a token is the one behind a part without any. -/
theorem replaceFirst_append (htoken : token ≠ []) {before tail : List Char}
    (h : Uncut unmarked token (token ++ tail) false before) (replacement : List Char) :
    replaceFirst token replacement (before ++ (token ++ tail)) =
      before ++ (replacement ++ tail) := by
  induction before with
  | nil =>
    obtain ⟨c, others, rfl⟩ := List.exists_cons_of_ne_nil htoken
    have hstart : afterStart? (c :: others) (c :: (others ++ tail)) = some tail :=
      afterStart?_eq_some_iff.mpr rfl
    rw [List.nil_append, List.cons_append, replaceFirst, hstart]
    rfl
  | cons c before ih =>
    have hstart : afterStart? token (c :: (before ++ (token ++ tail))) = none :=
      afterStart?_eq_none_iff.mpr (h.1 rfl)
    rw [List.cons_append, replaceFirst, hstart, List.cons_append, ← ih h.2]

theorem replaceFirst_of_uncut (htoken : token ≠ []) {chars : List Char}
    (h : Uncut unmarked token [] false chars) (replacement : List Char) :
    replaceFirst token replacement chars = chars := by
  induction chars with
  | nil => exact if_neg htoken
  | cons c chars ih =>
    have hfirst := h.1 rfl
    rw [List.append_nil] at hfirst
    rw [replaceFirst, afterStart?_eq_none_iff.mpr hfirst, ih h.2]

/-- A token in its own place changes nothing. -/
theorem replaceFirst_self (token chars : List Char) : replaceFirst token token chars = chars := by
  induction chars with
  | nil => exact ite_eq_right_iff.mpr id
  | cons c chars ih =>
    rw [replaceFirst]
    split
    · rename_i tail htail
      exact (afterStart?_eq_some_iff.mp htail).symm
    · rw [ih]

/-- A replacement makes a text longer by no more than what is put in. -/
theorem length_replaceFirst_le (token replacement chars : List Char) :
    (replaceFirst token replacement chars).length ≤ chars.length + replacement.length := by
  induction chars with
  | nil =>
    rw [replaceFirst]
    split <;> simp
  | cons c chars ih =>
    rw [replaceFirst]
    split
    · rename_i tail htail
      have hlength := congrArg List.length (afterStart?_eq_some_iff.mp htail)
      rw [List.length_append] at hlength
      rw [List.length_append]
      omega
    · rw [List.length_cons, List.length_cons]
      omega

end Replacing

end ReleaseNotes.Text
