import ReleaseNotes.Proofs.Version.Order

/-!
Sorting versions. The order need not be total on all versions, so what the library says about
sorting is used for an order on the versions of the list alone. If it is total there, the newest
version comes first and versions that are equally old stay in order.
-/

namespace ReleaseNotes.Version

open List

def isNotOlder (left right : String) : Bool :=
  compare right left != .gt

def newestFirst (versions : List String) : List String :=
  versions.mergeSort isNotOlder

theorem isNotOlder_iff {left right : String} :
    isNotOlder left right = true ↔ compare left right ≠ .lt := by
  rw [isNotOlder, compare_swap, bne_iff_ne, Ne, Ordering.swap_eq_gt]

theorem newestFirst_perm (versions : List String) : (newestFirst versions).Perm versions :=
  mergeSort_perm versions isNotOlder

def isNotOlderIn (versions : List String) (left right : { v // v ∈ versions }) : Bool :=
  isNotOlder left right

theorem map_mergeSort_isNotOlderIn (versions : List String) :
    (versions.attach.mergeSort (isNotOlderIn versions)).map Subtype.val = newestFirst versions := by
  rw [map_mergeSort (r := isNotOlderIn versions) (s := isNotOlder) fun _ _ _ _ => rfl,
    attach_map_subtype_val, newestFirst]

section Ordered

variable {versions : List String}

/-- Sorting asks for an order on the versions that are sorted and on no others. -/
theorem isNotOlderIn_trans (h : IsPreorderOn {v | v ∈ versions}) (a b c : { v // v ∈ versions })
    (hab : isNotOlderIn versions a b) (hbc : isNotOlderIn versions b c) :
    isNotOlderIn versions a c := by
  simp only [isNotOlderIn, isNotOlder, bne_iff_ne] at hab hbc ⊢
  exact h.trans c c.property b b.property a a.property hbc hab

theorem isNotOlderIn_total (a b : { v // v ∈ versions }) :
    isNotOlderIn versions a b || isNotOlderIn versions b a := by
  rw [Bool.or_eq_true, isNotOlderIn, isNotOlderIn, isNotOlder_iff, isNotOlder_iff,
    compare_swap a.val]
  cases compare a.val b.val <;> decide

/-- No version is older than a later one. -/
theorem pairwise_newestFirst (h : IsPreorderOn {v | v ∈ versions}) :
    (newestFirst versions).Pairwise fun former latter => compare former latter ≠ .lt := by
  rw [← map_mergeSort_isNotOlderIn, pairwise_map]
  have hsorted := pairwise_mergeSort (isNotOlderIn_trans h) isNotOlderIn_total versions.attach
  exact hsorted.imp isNotOlder_iff.mp

/-- Two versions that are equally old keep their order. -/
theorem pair_sublist_newestFirst (h : IsPreorderOn {v | v ∈ versions}) {v w : String}
    (hvw : [v, w] <+ versions) (heq : compare v w = .eq) : [v, w] <+ newestFirst versions := by
  rw [← attach_map_subtype_val versions, sublist_map_iff] at hvw
  obtain ⟨pair, hpair, hmap⟩ := hvw
  rw [hmap, ← map_mergeSort_isNotOlderIn]
  refine (sublist_mergeSort (isNotOlderIn_trans h) isNotOlderIn_total ?_ hpair).map _
  have hle : [v, w].Pairwise fun l r => isNotOlder l r = true := by
    rw [pairwise_pair, isNotOlder_iff, heq]
    decide
  rw [hmap, pairwise_map] at hle
  exact hle

end Ordered

end ReleaseNotes.Version
