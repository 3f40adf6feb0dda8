import Mathlib.Data.List.Forall2
import ReleaseNotes.Text.Separated

/-!
Patterns of texts. A pattern is a list of pieces. From left to right each piece takes a beginning of
what is left of the text, the one that it likes best of those after which the pieces that follow can
take the rest. The readings of a text are all the ways to take it apart, in the order of this
preference, and they are exactly the ways to put it together out of what the pieces accept.
-/

namespace ReleaseNotes.Text

inductive Piece where
  /-- Some characters. -/
  | exactly (chars : List Char)
  /-- Some characters, or else nothing. -/
  | perhaps (chars : List Char)
  /-- As many characters of a kind as possible, and one at least. -/
  | many (isAllowed : Char → Bool)
  /-- As few characters of a kind as possible, and one at least. -/
  | few (isAllowed : Char → Bool)

def startsOf (isAllowed : Char → Bool) : List Char → List (List Char × List Char)
  | [] => []
  | c :: rest =>
    if isAllowed c then
      ([c], rest) :: (startsOf isAllowed rest).map fun (start, tail) => (c :: start, tail)
    else []

namespace Piece

/-- What a piece can take of a text, each with the rest of the text, in the order of preference. -/
def starts : Piece → List Char → List (List Char × List Char)
  | exactly start, chars => (afterStart? start chars).toList.map (start, ·)
  | perhaps start, chars => (afterStart? start chars).toList.map (start, ·) ++ [([], chars)]
  | many isAllowed, chars => (startsOf isAllowed chars).reverse
  | few isAllowed, chars => startsOf isAllowed chars

def Accepts : Piece → List Char → Prop
  | exactly start, chars => chars = start
  | perhaps start, chars => chars = start ∨ chars = []
  | many isAllowed, chars | few isAllowed, chars => chars ≠ [] ∧ ∀ c ∈ chars, isAllowed c = true

end Piece

def readings : List Piece → List Char → List (List (List Char))
  | [], chars => if chars = [] then [[]] else []
  | piece :: pieces, chars =>
    (piece.starts chars).flatMap fun (part, rest) => (readings pieces rest).map (part :: ·)

theorem mem_startsOf_iff {isAllowed : Char → Bool} {chars start rest : List Char} :
    (start, rest) ∈ startsOf isAllowed chars ↔
      chars = start ++ rest ∧ start ≠ [] ∧ ∀ c ∈ start, isAllowed c = true := by
  induction chars generalizing start with
  | nil =>
    refine ⟨nofun, ?_⟩
    rintro ⟨hsplit, hne, _⟩
    exact absurd (List.append_eq_nil_iff.mp hsplit.symm).1 hne
  | cons c chars ih =>
    rw [startsOf]
    split
    · rename_i hc
      rw [List.mem_cons, List.mem_map]
      constructor
      · rintro (heq | ⟨⟨other, tail⟩, hother, heq⟩)
        · obtain ⟨rfl, rfl⟩ := Prod.mk.inj heq
          exact ⟨rfl, List.cons_ne_nil _ _, by simpa using hc⟩
        · obtain ⟨rfl, rfl⟩ := Prod.mk.inj heq
          obtain ⟨rfl, _, hall⟩ := ih.mp hother
          exact ⟨rfl, List.cons_ne_nil _ _, List.forall_mem_cons.mpr ⟨hc, hall⟩⟩
      · rintro ⟨hsplit, hne, hall⟩
        obtain ⟨first, others, rfl⟩ := List.exists_cons_of_ne_nil hne
        obtain ⟨rfl, rfl⟩ := List.cons.inj hsplit
        by_cases hothers : others = []
        · subst hothers
          exact Or.inl rfl
        · have hmem := ih.mpr ⟨rfl, hothers, (List.forall_mem_cons.mp hall).2⟩
          exact Or.inr ⟨(others, rest), hmem, rfl⟩
    · rename_i hc
      refine ⟨nofun, ?_⟩
      rintro ⟨hsplit, hne, hall⟩
      obtain ⟨first, others, rfl⟩ := List.exists_cons_of_ne_nil hne
      obtain ⟨rfl, _⟩ := List.cons.inj hsplit
      exact absurd (hall c List.mem_cons_self) hc

theorem mem_map_afterStart?_iff {part chars start rest : List Char} :
    (start, rest) ∈ (afterStart? part chars).toList.map (part, ·) ↔
      chars = start ++ rest ∧ start = part := by
  rw [List.mem_map]
  constructor
  · rintro ⟨tail, htail, heq⟩
    obtain ⟨rfl, rfl⟩ := Prod.mk.inj heq
    exact ⟨afterStart?_eq_some_iff.mp (Option.mem_toList.mp htail), rfl⟩
  · rintro ⟨hsplit, rfl⟩
    exact ⟨rest, Option.mem_toList.mpr (afterStart?_eq_some_iff.mpr hsplit), rfl⟩

/-- A piece takes the beginnings of a text that it accepts. -/
theorem Piece.mem_starts_iff {piece : Piece} {chars start rest : List Char} :
    (start, rest) ∈ piece.starts chars ↔ chars = start ++ rest ∧ piece.Accepts start := by
  cases piece with
  | exactly part => exact mem_map_afterStart?_iff
  | perhaps part =>
    have hnothing : (start, rest) ∈ [([], chars)] ↔ chars = start ++ rest ∧ start = [] := by
      rw [List.mem_singleton, Prod.mk.injEq]
      constructor
      · rintro ⟨rfl, rfl⟩
        exact ⟨rfl, rfl⟩
      · rintro ⟨rfl, rfl⟩
        exact ⟨rfl, rfl⟩
    rw [starts, List.mem_append, mem_map_afterStart?_iff, hnothing, Accepts, and_or_left]
  | many isAllowed => rw [starts, List.mem_reverse, mem_startsOf_iff, Accepts]
  | few isAllowed => rw [starts, mem_startsOf_iff, Accepts]

/-- A text has the readings that put it together out of parts which the pieces accept. -/
theorem mem_readings_iff {pieces : List Piece} {chars : List Char} {parts : List (List Char)} :
    parts ∈ readings pieces chars ↔
      chars = parts.flatten ∧ List.Forall₂ Piece.Accepts pieces parts := by
  induction pieces generalizing chars parts with
  | nil =>
    rw [readings, List.forall₂_nil_left_iff]
    constructor
    · intro h
      split at h
      · rename_i hchars
        obtain rfl := List.mem_singleton.mp h
        exact ⟨hchars, rfl⟩
      · contradiction
    · rintro ⟨hchars, rfl⟩
      have hempty : chars = [] := hchars
      rw [if_pos hempty]
      exact List.mem_singleton_self []
  | cons piece pieces ih =>
    rw [readings, List.mem_flatMap, List.forall₂_cons_left_iff]
    constructor
    · rintro ⟨⟨part, rest⟩, hpart, hparts⟩
      obtain ⟨others, hothers, rfl⟩ := List.mem_map.mp hparts
      obtain ⟨rfl, haccepts⟩ := Piece.mem_starts_iff.mp hpart
      obtain ⟨rfl, hrest⟩ := ih.mp hothers
      exact ⟨rfl, part, others, haccepts, hrest, rfl⟩
    · rintro ⟨hchars, part, others, haccepts, hrest, rfl⟩
      have hpart := Piece.mem_starts_iff.mpr ⟨hchars, haccepts⟩
      exact ⟨_, hpart, List.mem_map.mpr ⟨others, ih.mpr ⟨rfl, hrest⟩, rfl⟩⟩

section Preference

def Piece.Prefers : Piece → List Char → List Char → Prop
  | exactly _, _, _ => False
  | perhaps _, first, second => first ≠ [] ∧ second = []
  | many _, first, second => second.length < first.length
  | few _, first, second => first.length < second.length

/-- Of two readings, the one that is preferred by the first piece that they differ in. -/
def Precedes : List Piece → List (List Char) → List (List Char) → Prop
  | piece :: pieces, part :: parts, other :: others =>
    piece.Prefers part other ∨ part = other ∧ Precedes pieces parts others
  | _, _, _ => True

theorem pairwise_startsOf (isAllowed : Char → Bool) (chars : List Char) :
    (startsOf isAllowed chars).Pairwise fun first second => first.1.length < second.1.length := by
  induction chars with
  | nil => exact List.Pairwise.nil
  | cons c chars ih =>
    rw [startsOf]
    split
    · refine List.Pairwise.cons ?_ (List.pairwise_map.mpr (ih.imp Nat.succ_lt_succ))
      intro start hstart
      obtain ⟨⟨start, rest⟩, hmem, rfl⟩ := List.mem_map.mp hstart
      obtain ⟨_, hne, _⟩ := mem_startsOf_iff.mp hmem
      exact Nat.succ_lt_succ (List.length_pos_iff.mpr hne)
    · exact List.Pairwise.nil

/-- A piece tries its beginnings of a text in the order in which it likes them. -/
theorem Piece.pairwise_starts (piece : Piece) (chars : List Char) :
    (piece.starts chars).Pairwise fun first second =>
      piece.Prefers first.1 second.1 ∨ first = second := by
  cases piece with
  | exactly part =>
    rw [starts]
    cases afterStart? part chars with
    | none => exact List.Pairwise.nil
    | some rest => exact List.pairwise_singleton _ _
  | perhaps part =>
    rw [starts]
    cases hrest : afterStart? part chars with
    | none => exact List.pairwise_singleton _ _
    | some rest =>
      refine List.pairwise_pair.mpr ?_
      by_cases hpart : part = []
      · subst hpart
        exact Or.inr (Prod.ext rfl (afterStart?_eq_some_iff.mp hrest).symm)
      · exact Or.inl ⟨hpart, rfl⟩
  | many isAllowed =>
    rw [starts, List.pairwise_reverse]
    exact (pairwise_startsOf isAllowed chars).imp Or.inl
  | few isAllowed => exact (pairwise_startsOf isAllowed chars).imp Or.inl

/-- The first reading of a text precedes all others. -/
theorem precedes_of_head? {pieces : List Piece} {chars : List Char}
    {first other : List (List Char)} (hfirst : (readings pieces chars).head? = some first)
    (hother : other ∈ readings pieces chars) : Precedes pieces first other := by
  induction pieces generalizing chars first other with
  | nil => exact trivial
  | cons piece pieces ih =>
    rw [readings, List.head?_flatMap, List.findSome?_eq_some_iff] at hfirst
    obtain ⟨before, ⟨part, rest⟩, after, hstarts, hhead, hbefore⟩ := hfirst
    rw [List.head?_map, Option.map_eq_some_iff] at hhead
    obtain ⟨parts, hparts, rfl⟩ := hhead
    rw [readings, List.mem_flatMap] at hother
    obtain ⟨⟨otherPart, otherRest⟩, hmem, hreading⟩ := hother
    obtain ⟨others, hothers, rfl⟩ := List.mem_map.mp hreading
    rw [hstarts, List.mem_append, List.mem_cons] at hmem
    -- Nothing comes of what was tried before, and what is tried later is liked less.
    rcases hmem with hmem | heq | hmem
    · have hnone := hbefore _ hmem
      rw [List.head?_eq_none_iff, List.map_eq_nil_iff] at hnone
      rw [hnone] at hothers
      contradiction
    · obtain ⟨rfl, rfl⟩ := Prod.mk.inj heq
      exact Or.inr ⟨rfl, ih hparts hothers⟩
    · have hordered := piece.pairwise_starts chars
      rw [hstarts, List.pairwise_append] at hordered
      rcases List.rel_of_pairwise_cons hordered.2.1 hmem with hprefers | heq
      · exact Or.inl hprefers
      · obtain ⟨rfl, rfl⟩ := Prod.mk.inj heq
        exact Or.inr ⟨rfl, ih hparts hothers⟩

end Preference

end ReleaseNotes.Text
