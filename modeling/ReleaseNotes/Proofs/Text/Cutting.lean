import ReleaseNotes.Text.Separated

/-!
Cutting a text at a separator. Some characters are marks, and between one mark and the next the text
is not cut. A text that was made by joining parts is cut into these parts if no occurrence of the
separator begins within a part, outside marks, and every mark of a part is closed in the part.
-/

namespace ReleaseNotes.Text

section Cutting

variable (isMark : Char → Bool) (separator : List Char)

def openAfter : Bool → List Char → Bool
  | inside, [] => inside
  | inside, c :: rest => openAfter (inside ^^ isMark c) rest

def cutFrom? : Bool → List Char → Option (List Char × List Char)
  | _, [] => none
  | inside, c :: rest =>
    match if inside then none else afterStart? separator (c :: rest) with
    | some tail => some ([], tail)
    | none =>
      (cutFrom? (inside ^^ isMark c) rest).map fun (before, after) => (c :: before, after)

def cut? (chars : List Char) : Option (List Char × List Char) :=
  cutFrom? isMark separator false chars

/-- No occurrence of the separator begins within some characters, outside marks, if a rest follows
them. -/
def Uncut (rest : List Char) : Bool → List Char → Prop
  | _, [] => True
  | inside, c :: chars =>
    (inside = false → ¬separator <+: c :: (chars ++ rest)) ∧ Uncut rest (inside ^^ isMark c) chars

variable {isMark separator}

theorem afterStart?_eq_none_iff {start chars : List Char} :
    afterStart? start chars = none ↔ ¬start <+: chars := by
  rw [Option.eq_none_iff_forall_ne_some]
  constructor
  · rintro h ⟨tail, rfl⟩
    exact h tail (afterStart?_eq_some_iff.mpr rfl)
  · intro h tail htail
    exact h ⟨tail, (afterStart?_eq_some_iff.mp htail).symm⟩

theorem occursIn_iff_isInfix {token chars : List Char} :
    occursIn token chars = true ↔ token <:+: chars := by
  induction chars with
  | nil => rw [occursIn, List.isEmpty_iff, List.infix_nil]
  | cons c chars ih =>
    have hstart : (afterStart? token (c :: chars)).isSome = true ↔ token <+: c :: chars := by
      rw [Option.isSome_iff_exists]
      exact exists_congr fun tail => afterStart?_eq_some_iff.trans eq_comm
    rw [occursIn, Bool.or_eq_true, hstart, ih, List.infix_cons_iff]

theorem cutFrom?_cons_of_not_isPrefix {inside : Bool} {c : Char} {rest : List Char}
    (h : inside = false → ¬separator <+: c :: rest) :
    cutFrom? isMark separator inside (c :: rest) =
      (cutFrom? isMark separator (inside ^^ isMark c) rest).map
        fun (before, after) => (c :: before, after) := by
  have hnone : (if inside then none else afterStart? separator (c :: rest)) = none := by
    cases inside with
    | true => rfl
    | false => exact afterStart?_eq_none_iff.mpr (h rfl)
  rw [cutFrom?, hnone]

theorem cutFrom?_separator_append (hseparator : separator ≠ []) (tail : List Char) :
    cutFrom? isMark separator false (separator ++ tail) = some ([], tail) := by
  obtain ⟨c, rest, rfl⟩ := List.exists_cons_of_ne_nil hseparator
  have hsome : afterStart? (c :: rest) (c :: (rest ++ tail)) = some tail :=
    afterStart?_eq_some_iff.mpr rfl
  rw [List.cons_append, cutFrom?, if_neg Bool.false_ne_true, hsome]

/-- A text is cut at the separator behind a part that is closed and uncut. -/
theorem cutFrom?_append (hseparator : separator ≠ []) {inside : Bool} {chars tail : List Char}
    (hclosed : openAfter isMark inside chars = false)
    (huncut : Uncut isMark separator (separator ++ tail) inside chars) :
    cutFrom? isMark separator inside (chars ++ (separator ++ tail)) = some (chars, tail) := by
  induction chars generalizing inside with
  | nil =>
    obtain rfl : inside = false := hclosed
    exact cutFrom?_separator_append hseparator tail
  | cons c chars ih =>
    rw [List.cons_append, cutFrom?_cons_of_not_isPrefix huncut.1, ih hclosed huncut.2]
    rfl

theorem cutFrom?_eq_none {inside : Bool} {chars : List Char}
    (huncut : Uncut isMark separator [] inside chars) :
    cutFrom? isMark separator inside chars = none := by
  induction chars generalizing inside with
  | nil => rfl
  | cons c chars ih =>
    obtain ⟨hfirst, hrest⟩ := huncut
    rw [List.append_nil] at hfirst
    rw [cutFrom?_cons_of_not_isPrefix hfirst, ih hrest]
    rfl

/-- There is no cut exactly if no separator is found outside the marks. -/
theorem cutFrom?_eq_none_iff {inside : Bool} {chars : List Char} :
    cutFrom? isMark separator inside chars = none ↔ Uncut isMark separator [] inside chars := by
  refine ⟨fun h => ?_, cutFrom?_eq_none⟩
  induction chars generalizing inside with
  | nil => trivial
  | cons c chars ih =>
    rw [cutFrom?] at h
    split at h
    · contradiction
    · rename_i hnone
      refine ⟨fun hinside => ?_, ih (Option.map_eq_none_iff.mp h)⟩
      rw [hinside, if_neg Bool.false_ne_true] at hnone
      rw [List.append_nil]
      exact afterStart?_eq_none_iff.mp hnone

/-- A text is cut at an occurrence of the separator that no other one comes before. -/
theorem exists_of_cutFrom? {inside : Bool} {chars before after : List Char}
    (h : cutFrom? isMark separator inside chars = some (before, after)) :
    chars = before ++ (separator ++ after) ∧ openAfter isMark inside before = false ∧
      Uncut isMark separator (separator ++ after) inside before := by
  induction chars generalizing inside before with
  | nil => contradiction
  | cons c rest ih =>
    rw [cutFrom?] at h
    split at h
    · rename_i tail htail
      split at htail
      · contradiction
      · rename_i hinside
        obtain ⟨rfl, rfl⟩ := Prod.mk.inj (Option.some.inj h)
        have hstart := afterStart?_eq_some_iff.mp htail
        exact ⟨hstart, eq_false_of_ne_true hinside, trivial⟩
    · rename_i hnone
      obtain ⟨⟨first, tail⟩, hcut, heq⟩ := Option.map_eq_some_iff.mp h
      obtain ⟨rfl, rfl⟩ := Prod.mk.inj heq
      obtain ⟨rfl, hclosed, huncut⟩ := ih hcut
      refine ⟨rfl, hclosed, fun hinside => ?_, huncut⟩
      rw [hinside, if_neg Bool.false_ne_true] at hnone
      exact afterStart?_eq_none_iff.mp hnone

theorem length_of_cutFrom? {inside : Bool} {chars before after : List Char}
    (h : cutFrom? isMark separator inside chars = some (before, after)) :
    before.length + separator.length + after.length = chars.length := by
  rw [(exists_of_cutFrom? h).1, List.length_append, List.length_append, Nat.add_assoc]

variable (isMark separator)

def pieces (chars : List Char) : List (List Char) :=
  match h : cut? isMark separator chars with
  | none => [chars]
  | some (before, after) =>
    if hseparator : separator = [] then [chars]
    else
      have : after.length < chars.length := by
        have hlength := length_of_cutFrom? h
        have hpositive := List.length_pos_iff.mpr hseparator
        omega
      before :: pieces after
termination_by chars.length

/-- A part of a joined text that is cut off again. -/
structure IsPiece (part : List Char) : Prop where
  closed : openAfter isMark false part = false
  uncut : ∀ rest, rest = [] ∨ separator <+: rest → Uncut isMark separator rest false part

variable {isMark separator}

theorem pieces_of_eq_none {chars : List Char} (h : cut? isMark separator chars = none) :
    pieces isMark separator chars = [chars] := by
  rw [pieces]
  split
  · rfl
  · rename_i hsome
    rw [h] at hsome
    contradiction

theorem pieces_of_eq_some (hseparator : separator ≠ []) {chars before after : List Char}
    (h : cut? isMark separator chars = some (before, after)) :
    pieces isMark separator chars = before :: pieces isMark separator after := by
  rw [pieces]
  split
  · rename_i hnone
    rw [h] at hnone
    contradiction
  · rename_i hsome
    obtain ⟨rfl, rfl⟩ := Prod.mk.inj (Option.some.inj (h.symm.trans hsome))
    rw [dif_neg hseparator]

theorem pieces_ne_nil (hseparator : separator ≠ []) (chars : List Char) :
    pieces isMark separator chars ≠ [] := by
  cases h : cut? isMark separator chars with
  | none =>
    rw [pieces_of_eq_none h]
    exact List.cons_ne_nil _ _
  | some cut =>
    rw [pieces_of_eq_some hseparator h]
    exact List.cons_ne_nil _ _

/-- A text is a single piece exactly if it is not cut. -/
theorem pieces_eq_singleton_iff (hseparator : separator ≠ []) {chars : List Char} :
    pieces isMark separator chars = [chars] ↔ cut? isMark separator chars = none := by
  refine ⟨fun h => ?_, pieces_of_eq_none⟩
  rw [Option.eq_none_iff_forall_ne_some]
  rintro ⟨before, after⟩ hcut
  rw [pieces_of_eq_some hseparator hcut] at h
  exact pieces_ne_nil hseparator after (List.cons.inj h).2

/-- Joined parts are cut into the same parts. -/
theorem pieces_intercalate (hseparator : separator ≠ []) {parts : List (List Char)}
    (hparts : parts ≠ []) (h : ∀ part ∈ parts, IsPiece isMark separator part) :
    pieces isMark separator (separator.intercalate parts) = parts := by
  induction parts with
  | nil => contradiction
  | cons part parts ih =>
    obtain ⟨hpart, hrest⟩ := List.forall_mem_cons.mp h
    cases parts with
    | nil =>
      rw [List.intercalate_singleton]
      exact pieces_of_eq_none (cutFrom?_eq_none (hpart.uncut [] (Or.inl rfl)))
    | cons next parts =>
      have hcut : cut? isMark separator (separator.intercalate (part :: next :: parts)) =
          some (part, separator.intercalate (next :: parts)) := by
        rw [List.intercalate_cons_cons, List.append_assoc]
        exact cutFrom?_append hseparator hpart.closed
          (hpart.uncut _ (Or.inr (List.prefix_append _ _)))
      rw [pieces_of_eq_some hseparator hcut, ih nofun hrest]

/-- Items that are pieces are cut off again when they are joined. -/
theorem pieces_intercalate_map {α : Type} (hseparator : separator ≠ []) {write : α → List Char}
    {items : List α} (hitems : items ≠ [])
    (h : ∀ item ∈ items, IsPiece isMark separator (write item)) :
    pieces isMark separator (separator.intercalate (items.map write)) = items.map write := by
  have hparts : items.map write ≠ [] := by simpa using hitems
  refine pieces_intercalate hseparator hparts fun part hpart => ?_
  obtain ⟨item, hitem, rfl⟩ := List.mem_map.mp hpart
  exact h item hitem

end Cutting

section Uncut

variable {isMark : Char → Bool} {separator rest : List Char}

theorem openAfter_append (inside : Bool) (first second : List Char) :
    openAfter isMark inside (first ++ second) =
      openAfter isMark (openAfter isMark inside first) second := by
  induction first generalizing inside with
  | nil => rfl
  | cons c first ih => exact ih (inside ^^ isMark c)

theorem closed_append {first second : List Char} (hfirst : openAfter isMark false first = false)
    (hsecond : openAfter isMark false second = false) :
    openAfter isMark false (first ++ second) = false := by
  rw [openAfter_append, hfirst, hsecond]

theorem openAfter_of_unmarked (inside : Bool) {chars : List Char}
    (h : ∀ c ∈ chars, isMark c = false) : openAfter isMark inside chars = inside := by
  induction chars with
  | nil => rfl
  | cons c chars ih =>
    obtain ⟨hc, hchars⟩ := List.forall_mem_cons.mp h
    rw [openAfter, hc, Bool.xor_false, ih hchars]

theorem closed_intercalate_map {α : Type} (hseparator : openAfter isMark false separator = false)
    {write : α → List Char} {items : List α}
    (h : ∀ item ∈ items, openAfter isMark false (write item) = false) :
    openAfter isMark false (separator.intercalate (items.map write)) = false := by
  induction items with
  | nil => rfl
  | cons item items ih =>
    obtain ⟨hitem, hitems⟩ := List.forall_mem_cons.mp h
    cases items with
    | nil =>
      rw [List.map_singleton, List.intercalate_singleton]
      exact hitem
    | cons next items =>
      rw [List.map_cons, List.map_cons, List.intercalate_cons_cons, ← List.map_cons]
      exact closed_append (closed_append hitem hseparator) (ih hitems)

/-- Looking for separators can be split, if each part knows what follows it and whether marks are
open there. -/
theorem uncut_append {inside : Bool} {first second : List Char} :
    Uncut isMark separator rest inside (first ++ second) ↔
      Uncut isMark separator (second ++ rest) inside first ∧
        Uncut isMark separator rest (openAfter isMark inside first) second := by
  induction first generalizing inside with
  | nil => simp [Uncut, openAfter]
  | cons c first ih =>
    simp only [List.cons_append, Uncut, openAfter, ih, List.append_assoc, and_assoc]

/-- What is not cut with something behind it is not cut by itself. -/
theorem Uncut.alone {inside : Bool} {chars : List Char}
    (h : Uncut isMark separator rest inside chars) : Uncut isMark separator [] inside chars := by
  induction chars generalizing inside with
  | nil => trivial
  | cons c chars ih =>
    refine ⟨fun hinside hbegins => h.1 hinside (hbegins.trans ?_), ih h.2⟩
    exact List.cons_prefix_cons.mpr ⟨rfl, (List.prefix_append_right_inj chars).mpr List.nil_prefix⟩

/-- No separator goes on beyond a character that it does not have. -/
theorem isPrefix_of_append_cons {c : Char} (hc : c ∉ separator) {chars : List Char}
    (h : separator <+: chars ++ c :: rest) : separator <+: chars := by
  rcases List.prefix_or_prefix_of_prefix h (List.prefix_append chars _) with hwithin | ⟨more, rfl⟩
  · exact hwithin
  · cases more with
    | nil => exact (List.append_nil chars).symm ▸ List.prefix_rfl
    | cons next more =>
      obtain ⟨rfl, _⟩ := List.cons_prefix_cons.mp ((List.prefix_append_right_inj chars).mp h)
      exact absurd (List.mem_append_right _ List.mem_cons_self) hc

/-- Nothing that follows makes an occurrence of the separator begin before a character that it does
not have. -/
theorem Uncut.of_last {inside : Bool} {last : Char} (hlast : last ∉ separator) {chars : List Char}
    (h : Uncut isMark separator [] inside (chars ++ [last])) :
    Uncut isMark separator rest inside (chars ++ [last]) := by
  induction chars generalizing inside with
  | nil =>
    refine ⟨fun hinside hprefix => h.1 hinside ?_, trivial⟩
    exact (isPrefix_of_append_cons hlast hprefix).trans List.nil_prefix
  | cons c chars ih =>
    refine ⟨fun hinside hprefix => h.1 hinside ?_, ih h.2⟩
    have hsplit : c :: (chars ++ [last] ++ rest) = c :: chars ++ last :: rest := by simp
    have hwithin := isPrefix_of_append_cons hlast (hsplit ▸ hprefix)
    rw [List.append_nil]
    exact hwithin.trans (List.prefix_append (c :: chars) [last])

/-- Nothing is cut within marks. -/
theorem uncut_of_open {chars : List Char} (h : ∀ c ∈ chars, isMark c = false) :
    Uncut isMark separator rest true chars := by
  induction chars with
  | nil => trivial
  | cons c chars ih =>
    obtain ⟨hc, hchars⟩ := List.forall_mem_cons.mp h
    refine ⟨nofun, ?_⟩
    rw [hc]
    exact ih hchars

/-- A separator begins only where its first character is. -/
theorem not_isPrefix_cons {c start : Char} (hstart : separator.head? = some start) (hne : start ≠ c)
    (chars : List Char) : ¬separator <+: c :: chars := by
  obtain ⟨others, rfl⟩ := List.head?_eq_some_iff.mp hstart
  intro hprefix
  exact hne (List.cons_prefix_cons.mp hprefix).1

theorem uncut_cons {c start : Char} (hstart : separator.head? = some start) (hne : start ≠ c)
    (hmark : isMark c = false) {chars : List Char} (h : Uncut isMark separator rest false chars) :
    Uncut isMark separator rest false (c :: chars) := by
  refine ⟨fun _ => not_isPrefix_cons hstart hne _, ?_⟩
  rw [hmark]
  exact h

theorem uncut_of_notMem {inside : Bool} {start : Char} (hstart : separator.head? = some start)
    {chars : List Char} (h : start ∉ chars) : Uncut isMark separator rest inside chars := by
  induction chars generalizing inside with
  | nil => trivial
  | cons c chars ih =>
    rw [List.mem_cons, not_or] at h
    exact ⟨fun _ => not_isPrefix_cons hstart h.1 _, ih h.2⟩

/-- A separator does not begin where its second character cannot follow. -/
theorem uncut_of_second_notMem {inside : Bool} {start second : Char} {others : List Char}
    (hrest : rest.head? ≠ some second) {chars : List Char} (h : second ∉ chars) :
    Uncut isMark (start :: second :: others) rest inside chars := by
  induction chars generalizing inside with
  | nil => trivial
  | cons c chars ih =>
    rw [List.mem_cons, not_or] at h
    refine ⟨fun _ hprefix => ?_, ih h.2⟩
    obtain ⟨tail, htail⟩ := (List.cons_prefix_cons.mp hprefix).2
    cases chars with
    | nil => exact hrest (by rw [← List.nil_append rest, ← htail]; rfl)
    | cons d chars =>
      obtain ⟨rfl, _⟩ := List.cons.inj htail
      exact h.2 List.mem_cons_self

theorem closed_marked {mark : Char} (hmark : isMark mark = true) {chars : List Char}
    (h : ∀ c ∈ chars, isMark c = false) :
    openAfter isMark false (mark :: (chars ++ [mark])) = false := by
  rw [openAfter, hmark, openAfter_append, openAfter_of_unmarked _ h]
  simp [openAfter, hmark]

/-- Between marks there may be anything else. -/
theorem uncut_marked {mark start : Char} (hmark : isMark mark = true)
    (hstart : separator.head? = some start) (hne : start ≠ mark) {chars : List Char}
    (h : ∀ c ∈ chars, isMark c = false) :
    Uncut isMark separator rest false (mark :: (chars ++ [mark])) := by
  refine ⟨fun _ => not_isPrefix_cons hstart hne _, ?_⟩
  rw [hmark, uncut_append]
  refine ⟨uncut_of_open h, ?_⟩
  rw [openAfter_of_unmarked _ h]
  exact ⟨nofun, trivial⟩

end Uncut

section Whole

variable {isMark : Char → Bool} {separator part : List Char}

/-- A part of a text that is left whole wherever a space or nothing follows it. -/
structure IsWhole (isMark : Char → Bool) (separator part : List Char) : Prop where
  closed : openAfter isMark false part = false
  uncut : ∀ rest, rest = [] ∨ rest.head? = some ' ' → Uncut isMark separator rest false part

theorem IsWhole.isPiece (h : IsWhole isMark separator part) (hspace : separator.head? = some ' ') :
    IsPiece isMark separator part := by
  refine ⟨h.closed, fun rest hrest => h.uncut rest (hrest.imp_right ?_)⟩
  rintro ⟨tail, rfl⟩
  obtain ⟨others, rfl⟩ := List.head?_eq_some_iff.mp hspace
  rfl

end Whole

section First

theorem splitFirst?_append {isSeparator : Char → Bool} {separator : Char}
    (hseparator : isSeparator separator = true) {before : List Char}
    (h : ∀ c ∈ before, isSeparator c = false) (after : List Char) :
    splitFirst? isSeparator (before ++ separator :: after) = some (before, after) := by
  induction before with
  | nil => rw [List.nil_append, splitFirst?, if_pos hseparator]
  | cons c before ih =>
    obtain ⟨hc, hbefore⟩ := List.forall_mem_cons.mp h
    rw [List.cons_append, splitFirst?, hc, ih hbefore]
    rfl

theorem exists_of_splitFirst? {isSeparator : Char → Bool} {chars before after : List Char}
    (h : splitFirst? isSeparator chars = some (before, after)) :
    ∃ separator, isSeparator separator = true ∧ chars = before ++ separator :: after := by
  induction chars generalizing before with
  | nil => contradiction
  | cons first rest ih =>
    rw [splitFirst?] at h
    split at h
    · rename_i hfirst
      obtain ⟨rfl, rfl⟩ := Prod.mk.inj (Option.some.inj h)
      exact ⟨first, hfirst, rfl⟩
    · obtain ⟨⟨start, tail⟩, hrest, heq⟩ := Option.map_eq_some_iff.mp h
      obtain ⟨rfl, rfl⟩ := Prod.mk.inj heq
      obtain ⟨separator, hseparator, rfl⟩ := ih hrest
      exact ⟨separator, hseparator, rfl⟩

end First

section Last

theorem beq_eq_false_of_notMem {separator : Char} {chars : List Char} (h : separator ∉ chars) :
    ∀ c ∈ chars, (c == separator) = false := by
  intro c hc
  rw [beq_eq_false_iff_ne]
  rintro rfl
  exact h hc

theorem splitLast?_eq_none {isSeparator : Char → Bool} {chars : List Char}
    (h : ∀ c ∈ chars, isSeparator c = false) : splitLast? isSeparator chars = none := by
  induction chars with
  | nil => rfl
  | cons c chars ih =>
    obtain ⟨hc, hchars⟩ := List.forall_mem_cons.mp h
    rw [splitLast?, ih hchars]
    simp [hc]

theorem splitLast?_eq_none_iff {isSeparator : Char → Bool} {chars : List Char} :
    splitLast? isSeparator chars = none ↔ ∀ c ∈ chars, isSeparator c = false := by
  refine ⟨fun h => ?_, splitLast?_eq_none⟩
  induction chars with
  | nil => exact nofun
  | cons first rest ih =>
    rw [splitLast?] at h
    split at h
    · contradiction
    · rename_i hrest
      split at h
      · contradiction
      · rename_i hfirst
        exact List.forall_mem_cons.mpr ⟨eq_false_of_ne_true hfirst, ih hrest⟩

/-- A text is cut at a separator that no other one follows. -/
theorem exists_of_splitLast? {isSeparator : Char → Bool} {chars before after : List Char}
    (h : splitLast? isSeparator chars = some (before, after)) :
    ∃ separator, isSeparator separator = true ∧ chars = before ++ separator :: after ∧
      ∀ c ∈ after, isSeparator c = false := by
  induction chars generalizing before with
  | nil => contradiction
  | cons first rest ih =>
    rw [splitLast?] at h
    split at h
    · rename_i start tail hrest
      obtain ⟨rfl, rfl⟩ := Prod.mk.inj (Option.some.inj h)
      obtain ⟨separator, hseparator, rfl, hafter⟩ := ih hrest
      exact ⟨separator, hseparator, rfl, hafter⟩
    · rename_i hrest
      split at h
      · rename_i hfirst
        obtain ⟨rfl, rfl⟩ := Prod.mk.inj (Option.some.inj h)
        exact ⟨first, hfirst, rfl, splitLast?_eq_none_iff.mp hrest⟩
      · contradiction

theorem splitLast?_append {isSeparator : Char → Bool} {separator : Char}
    (hseparator : isSeparator separator = true) (before : List Char) {after : List Char}
    (h : ∀ c ∈ after, isSeparator c = false) :
    splitLast? isSeparator (before ++ separator :: after) = some (before, after) := by
  induction before with
  | nil =>
    rw [List.nil_append, splitLast?, splitLast?_eq_none h]
    simp [hseparator]
  | cons c before ih => rw [List.cons_append, splitLast?, ih]

theorem mem_of_splitLast? {isSeparator : Char → Bool} {chars before after : List Char}
    (h : splitLast? isSeparator chars = some (before, after)) {c : Char} (hc : c ∈ before) :
    c ∈ chars := by
  induction chars generalizing before with
  | nil => contradiction
  | cons first rest ih =>
    rw [splitLast?] at h
    split at h
    · rename_i hrest
      obtain ⟨rfl, rfl⟩ := Prod.mk.inj (Option.some.inj h)
      rcases List.mem_cons.mp hc with rfl | hc
      · exact List.mem_cons_self
      · exact List.mem_cons_of_mem first (ih hrest hc)
    · split at h
      · obtain ⟨rfl, _⟩ := Prod.mk.inj (Option.some.inj h)
        contradiction
      · contradiction

end Last

section Words

variable {isMark : Char → Bool} {word rest : List Char}

def spaced (word others : List Char) : List Char := ' ' :: (word ++ ' ' :: others)

def firstWord (chars : List Char) : List Char := chars.takeWhile (· != ' ')

theorem firstWord_append (hword : ' ' ∉ word) (rest : List Char) :
    firstWord (word ++ rest) = word ++ firstWord rest := by
  apply List.takeWhile_append_of_pos
  intro c hc
  rw [bne_iff_ne]
  rintro rfl
  exact hword hc

theorem firstWord_append_of_space (hword : ' ' ∉ word)
    (hrest : rest = [] ∨ rest.head? = some ' ') : firstWord (word ++ rest) = word := by
  have hnil : firstWord rest = [] := by
    rcases hrest with rfl | hspace
    · rfl
    · obtain ⟨others, rfl⟩ := List.head?_eq_some_iff.mp hspace
      rfl
  rw [firstWord_append hword, hnil, List.append_nil]

/-- A space is no beginning of the separator if another word follows it. -/
theorem uncut_space_cons (hword : ' ' ∉ word) {others chars : List Char}
    (hspace : isMark ' ' = false) (hne : firstWord (chars ++ rest) ≠ word)
    (h : Uncut isMark (spaced word others) rest false chars) :
    Uncut isMark (spaced word others) rest false (' ' :: chars) := by
  refine ⟨fun _ hprefix => hne ?_, ?_⟩
  · obtain ⟨tail, htail⟩ := (List.cons_prefix_cons.mp hprefix).2
    rw [← htail, List.append_assoc]
    exact firstWord_append_of_space hword (Or.inr rfl)
  · rw [hspace]
    exact h

/-- One separator is not cut at the word of another one. -/
theorem uncut_spaced_append {operator opening others chars : List Char} (hword : ' ' ∉ word)
    (hoperator : ' ' ∉ operator) (hne : operator ≠ word) (hspace : isMark ' ' = false)
    (hunmarked : ∀ c ∈ operator, isMark c = false)
    (h : Uncut isMark (spaced word others) rest false (' ' :: (opening ++ chars))) :
    Uncut isMark (spaced word others) rest false (spaced operator opening ++ chars) := by
  have hsplit : spaced operator opening ++ chars =
      ' ' :: (operator ++ ' ' :: (opening ++ chars)) := by
    simp [spaced]
  rw [hsplit]
  refine uncut_space_cons hword hspace ?_ (uncut_append.mpr ⟨?_, ?_⟩)
  · rw [List.append_assoc, firstWord_append_of_space hoperator (Or.inr rfl)]
    exact hne
  · exact uncut_of_notMem rfl hoperator
  · rw [openAfter_of_unmarked false hunmarked]
    exact h

end Words

end ReleaseNotes.Text
