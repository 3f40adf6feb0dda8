import Mathlib.Algebra.Order.Group.Nat
import Mathlib.Data.List.DropRight
import Mathlib.Data.List.GetD
import Mathlib.Order.PiLex
import Mathlib.Order.RelClasses
import ReleaseNotes.Proofs.Version.Order

/-!
Endless sequences as a measure for comparisons. A list goes on with zeros without end, and the first
place where two sequences differ decides between them. They are equal exactly if the lists are the
same up to zeros at the end. Versions are compared as such sequences if their items are compared as
values, among which zero stands for a missing item.
-/

namespace ReleaseNotes.Version

section Comparison

variable {α : Type} [LinearOrder α]

theorem toLex_lt_of_tail_lt {f g : ℕ → α} (hhead : f 0 = g 0)
    (htail : toLex (fun place => f (place + 1)) < toLex (fun place => g (place + 1))) :
    toLex f < toLex g := by
  obtain ⟨place, hsame, hlt⟩ := htail
  refine ⟨place + 1, ?_, hlt⟩
  intro before hbefore
  cases before with
  | zero => exact hhead
  | succ before =>
    have hprior : before < place := by
      have h : before + 1 < place + 1 := hbefore
      omega
    exact hsame before hprior

/-- Sequences are compared by their first values, and then by what follows these. -/
theorem compare_toLex_eq_then (f g : ℕ → α) :
    Ord.compare (toLex f) (toLex g) =
      (Ord.compare (f 0) (g 0)).then
        (Ord.compare (toLex fun place => f (place + 1)) (toLex fun place => g (place + 1))) := by
  rcases lt_trichotomy (f 0) (g 0) with hlt | heq | hgt
  · have hsequence : toLex f < toLex g := ⟨0, fun _ h => absurd h (Nat.not_lt_zero _), hlt⟩
    rw [compare_lt_iff_lt.mpr hlt, compare_lt_iff_lt.mpr hsequence, Ordering.lt_then]
  · rw [compare_eq_iff_eq.mpr heq, Ordering.eq_then]
    rcases lt_trichotomy (toLex fun place => f (place + 1)) (toLex fun place => g (place + 1))
      with hlt | hsame | hgt
    · rw [compare_lt_iff_lt.mpr hlt, compare_lt_iff_lt.mpr (toLex_lt_of_tail_lt heq hlt)]
    · have hsequence : toLex f = toLex g := by
        apply congrArg toLex
        funext place
        cases place with
        | zero => exact heq
        | succ place => exact congrFun (toLex.injective hsame) place
      rw [compare_eq_iff_eq.mpr hsame, compare_eq_iff_eq.mpr hsequence]
    · rw [compare_gt_iff_gt.mpr hgt, compare_gt_iff_gt.mpr (toLex_lt_of_tail_lt heq.symm hgt)]
  · have hsequence : toLex g < toLex f := ⟨0, fun _ h => absurd h (Nat.not_lt_zero _), hgt⟩
    rw [compare_gt_iff_gt.mpr hgt, compare_gt_iff_gt.mpr hsequence, Ordering.gt_then]

end Comparison

section Endless

variable {α : Type} [Zero α]

/-- The values and then zeros without end. The first place that differs decides the order of two
such sequences. -/
def endless (values : List α) : Lex (ℕ → α) :=
  toLex fun place => values.getD place 0

theorem endless_nil : endless ([] : List α) = endless [0] := by
  apply congrArg toLex
  funext place
  cases place with
  | zero => rfl
  | succ place => rfl

/-- Endless lists are compared at the first place, and from the second one on if that is equal. -/
theorem compare_endless_cons [LinearOrder α] (value other : α) (values others : List α) :
    Ord.compare (endless (value :: values)) (endless (other :: others)) =
      (Ord.compare value other).then (Ord.compare (endless values) (endless others)) :=
  compare_toLex_eq_then _ _

theorem compare_endless_nil_right [LinearOrder α] (value : α) (values : List α) :
    Ord.compare (endless (value :: values)) (endless []) =
      (Ord.compare value 0).then (Ord.compare (endless values) (endless [])) := by
  conv_lhs => rw [endless_nil]
  exact compare_endless_cons value 0 values []

theorem endless_append_zero (values : List α) : endless (values ++ [0]) = endless values := by
  apply congrArg toLex
  funext place
  rcases Nat.lt_or_ge place values.length with hlt | hge
  · exact List.getD_append _ _ _ _ hlt
  · rw [List.getD_append_right _ _ _ _ hge, List.getD_eq_default _ _ hge]
    cases place - values.length with
    | zero => rfl
    | succ place => rfl

theorem length_le_of_endless_eq {values others : List α} (h : endless values = endless others)
    (hlast : ∀ hne : values ≠ [], values.getLast hne ≠ 0) : values.length ≤ others.length := by
  by_contra hlonger
  have hne : values ≠ [] := by
    rintro rfl
    simp at hlonger
  have hlength := List.length_pos_iff.mpr hne
  have hplace := congrFun (toLex.injective h) (values.length - 1)
  rw [List.getD_eq_default others 0 (by omega), List.getD_eq_getElem _ _ (by omega),
    ← List.getLast_eq_getElem hne] at hplace
  exact hlast hne hplace

/-- Without zeros at the end, lists that go on in the same way are the same. -/
theorem eq_of_endless_eq {values others : List α} (h : endless values = endless others)
    (hvalues : ∀ hne : values ≠ [], values.getLast hne ≠ 0)
    (hothers : ∀ hne : others ≠ [], others.getLast hne ≠ 0) : values = others := by
  have hle := length_le_of_endless_eq h hvalues
  have hge := length_le_of_endless_eq h.symm hothers
  apply List.ext_getElem (by omega)
  intro place hplace hplace'
  have hsame := congrFun (toLex.injective h) place
  rwa [List.getD_eq_getElem _ _ hplace, List.getD_eq_getElem _ _ hplace'] at hsame

variable [DecidableEq α]

def withoutZeros (values : List α) : List α :=
  values.rdropWhile fun value => value = 0

theorem endless_withoutZeros (values : List α) :
    endless (withoutZeros values) = endless values := by
  unfold withoutZeros
  induction values using List.reverseRecOn with
  | nil => rfl
  | append_singleton values last ih =>
    by_cases hlast : last = 0
    · rw [List.rdropWhile_concat_pos _ _ _ (by simpa using hlast), ih, hlast, endless_append_zero]
    · rw [List.rdropWhile_concat_neg _ _ _ (by simpa using hlast)]

theorem getLast_withoutZeros (values : List α) (hne : withoutZeros values ≠ []) :
    (withoutZeros values).getLast hne ≠ 0 := by
  have hlast := List.rdropWhile_last_not (fun value : α => decide (value = 0)) values hne
  rwa [decide_eq_true_iff] at hlast

/-- Endless sequences are equal exactly if the values are, up to zeros at the end. -/
theorem endless_eq_iff {values others : List α} :
    endless values = endless others ↔ withoutZeros values = withoutZeros others := by
  constructor
  · intro h
    rw [← endless_withoutZeros values, ← endless_withoutZeros others] at h
    exact eq_of_endless_eq h (getLast_withoutZeros values) (getLast_withoutZeros others)
  · intro h
    rw [← endless_withoutZeros values, h, endless_withoutZeros]

end Endless

section Measure

variable {α : Type} [Zero α] [LinearOrder α] {measures : Item → α → Prop}
  (habsent : ∀ {item value}, measures item value →
    compareItem item item.absentBeside = Ord.compare value 0)

include habsent

/-- Items are compared with nothing as if zeros went on there. -/
theorem compareItems_nil_of_measures {items : List Item} {values : List α}
    (h : List.Forall₂ measures items values) :
    compareItems items [] = Ord.compare (endless values) (endless []) := by
  induction h with
  | nil => rw [compareItems, Std.compare_self]
  | cons hitem hitems ih => rw [compareItems, habsent hitem, ih, compare_endless_nil_right]

theorem nil_compareItems_of_measures {items : List Item} {values : List α}
    (h : List.Forall₂ measures items values) :
    compareItems [] items = Ord.compare (endless []) (endless values) := by
  rw [compareItems_swap, compareItems_nil_of_measures habsent h]
  exact Std.OrientedOrd.eq_swap.symm

/-- Where one list ends before the other, the zeros after it take the places of its items. -/
theorem compareItems_of_measures
    (hpair : ∀ {left right first second}, measures left first → measures right second →
      compareItem left right = Ord.compare first second)
    {left right : List Item} {first second : List α} (hleft : List.Forall₂ measures left first)
    (hright : List.Forall₂ measures right second) :
    compareItems left right = Ord.compare (endless first) (endless second) := by
  induction hleft generalizing right second with
  | nil => exact nil_compareItems_of_measures habsent hright
  | cons hl hlefts ih =>
    cases hright with
    | nil => exact compareItems_nil_of_measures habsent (.cons hl hlefts)
    | cons hr hrights => rw [compareItems, hpair hl hr, ih hrights, compare_endless_cons]

end Measure

end ReleaseNotes.Version
