import Mathlib.Data.Set.Defs
import ReleaseNotes.Version

/-!
The comparison of versions as an order. Items are ordered totally, and so are the heads of versions
as long as at most two of the three kinds of heads occur: numbers, qualifiers and missing items.
Where all three meet, a missing item equals both zero and a plain release, although any number is
newer than any qualifier, and the order can lead around in a circle. There is no other way for it to
do so: versions are ordered totally exactly if no three of them conflict.
-/

namespace ReleaseNotes.Version

instance : Std.TransCmp compareQualifiers :=
  inferInstanceAs (Std.TransCmp (compareLex (compareOn fun word => (qualifierRank word).1)
    (compareOn fun word => (qualifierRank word).2)))

def aliases : List String := ["a", "b", "m", "cr", "ga", "final", "release"]

/-- All other words share a place, behind the known ones. -/
theorem qualifierRank_of_notMem {word : String} (h : word ∉ aliases ++ knownQualifiers) :
    qualifierRank word = (7, word) := by
  rw [List.mem_append, not_or] at h
  obtain ⟨halias, hknown⟩ := h
  have hcanonical : canonicalQualifier word = word := by
    simp only [aliases, List.mem_cons, List.not_mem_nil, or_false, not_or] at halias
    simp only [canonicalQualifier, halias, or_self, if_false]
  have hplace : knownQualifiers.idxOf? word = none := List.idxOf?_eq_none_iff.mpr hknown
  simp only [qualifierRank, hcanonical, hplace]
  rfl

theorem compareQualifiers_swap (left right : String) :
    compareQualifiers right left = (compareQualifiers left right).swap :=
  Std.OrientedCmp.eq_swap

theorem compareItem_swap (left right : Item) :
    compareItem right left = (compareItem left right).swap := by
  cases left <;> cases right
  · exact Std.OrientedOrd.eq_swap
  · rfl
  · rfl
  · exact compareQualifiers_swap _ _

/-- Any number is newer than any qualifier, so three items in a row have at most one change of
kind, and numbers and qualifiers alone are ordered totally. -/
instance : Std.TransCmp compareItem where
  eq_swap := compareItem_swap _ _
  isLE_trans {a b c} hab hbc := by
    cases a with
    | number l =>
      cases b with
      | number m =>
        cases c with
        | number r => exact Std.TransOrd.isLE_trans (α := Nat) hab hbc
        | qualifier w => contradiction
      | qualifier w => contradiction
    | qualifier v =>
      cases c with
      | number r => rfl
      | qualifier x =>
        cases b with
        | number m => contradiction
        | qualifier w =>
          have hvw : (compareQualifiers v w).isLE := hab
          have hvx : (compareQualifiers v x).isLE := Std.TransCmp.isLE_trans hvw hbc
          exact hvx

/-- The comparison at one place of two versions, each of which may have ended before. -/
def compareHeads : Option Item → Option Item → Ordering
  | some l, some r => compareItem l r
  | some l, none => compareItem l l.absentBeside
  | none, some r => compareItem r.absentBeside r
  | none, none => .eq

/-- Lists of items are compared item by item, where one that ends goes on with nothing. -/
theorem compareItems_eq_then (left right : List Item) :
    compareItems left right =
      (compareHeads left.head? right.head?).then (compareItems left.tail right.tail) := by
  cases left <;> cases right <;> simp [compareItems, compareHeads]

theorem compareHeads_swap (left right : Option Item) :
    compareHeads right left = (compareHeads left right).swap := by
  cases left <;> cases right
  · rfl
  · exact compareItem_swap _ _
  · exact compareItem_swap _ _
  · exact compareItem_swap _ _

/-- Comparing the other way round gives the opposite answer, by induction on both lists. -/
theorem compareItems_swap (left right : List Item) :
    compareItems right left = (compareItems left right).swap := by
  fun_induction compareItems left right with
  | case1 => simp [compareItems]
  | case2 l left ih => rw [compareItems, compareItem_swap l, ih, Ordering.swap_then]
  | case3 r right ih => rw [compareItems, compareItem_swap _ r, ih, Ordering.swap_then]
  | case4 l left r right ih => rw [compareItems, compareItem_swap l r, ih, Ordering.swap_then]

theorem compare_swap (left right : String) : compare right left = (compare left right).swap :=
  compareItems_swap _ _

theorem compare_self (version : String) : compare version version = .eq :=
  Ordering.eq_eq_of_eq_swap (compare_swap version version)

instance : Std.OrientedCmp compareHeads := ⟨compareHeads_swap _ _⟩

instance : Std.OrientedCmp compareItems := ⟨compareItems_swap _ _⟩

instance : Std.OrientedCmp compare := ⟨compare_swap _ _⟩

/-- Where a missing item stands for the same item beside both heads, it can be filled in. -/
theorem compareHeads_eq_of_absentBeside {absent : Item} {x y : Option Item}
    (hx : ∀ item, x = some item → item.absentBeside = absent)
    (hy : ∀ item, y = some item → item.absentBeside = absent) :
    compareHeads x y = compareItem (x.getD absent) (y.getD absent) := by
  cases x with
  | none =>
    cases y with
    | none => exact Std.ReflCmp.compare_self.symm
    | some r => simp only [compareHeads, hy r rfl, Option.getD_none, Option.getD_some]
  | some l =>
    cases y with
    | none => simp only [compareHeads, hx l rfl, Option.getD_none, Option.getD_some]
    | some r => rfl

def AllKinds (heads : List (Option Item)) : Prop :=
  none ∈ heads ∧ (∃ n, some (.number n) ∈ heads) ∧ ∃ word, some (.qualifier word) ∈ heads

theorem AllKinds.mono {heads others : List (Option Item)} (h : AllKinds heads)
    (hsub : heads ⊆ others) : AllKinds others := by
  obtain ⟨hmissing, ⟨n, hnumber⟩, word, hqualifier⟩ := h
  exact ⟨hsub hmissing, ⟨n, hsub hnumber⟩, word, hsub hqualifier⟩

/-- Heads of at most two kinds agree on what a missing item stands for, if one is missing. -/
theorem exists_absent_of_not_allKinds {heads : List (Option Item)} (h : ¬AllKinds heads)
    (hmissing : none ∈ heads) :
    ∃ absent : Item, ∀ item, some item ∈ heads → item.absentBeside = absent := by
  by_cases hnumber : ∃ n, some (.number n) ∈ heads
  · refine ⟨.number 0, fun item hitem => ?_⟩
    cases item with
    | number n => rfl
    | qualifier word => exact absurd ⟨hmissing, hnumber, word, hitem⟩ h
  · refine ⟨.qualifier "", fun item hitem => ?_⟩
    cases item with
    | number n => exact absurd ⟨n, hitem⟩ hnumber
    | qualifier word => rfl

/-- Comparing heads is transitive unless an end, a number and a qualifier meet. -/
theorem compareHeads_isLE_trans {heads : List (Option Item)} (h : ¬AllKinds heads)
    {x y z : Option Item} (hx : x ∈ heads) (hy : y ∈ heads) (hz : z ∈ heads)
    (hxy : (compareHeads x y).isLE) (hyz : (compareHeads y z).isLE) :
    (compareHeads x z).isLE := by
  by_cases hmissing : none ∈ heads
  · obtain ⟨absent, habsent⟩ := exists_absent_of_not_allKinds h hmissing
    have hfill : ∀ {u v : Option Item}, u ∈ heads → v ∈ heads →
        compareHeads u v = compareItem (u.getD absent) (v.getD absent) := by
      intro u v hu hv
      apply compareHeads_eq_of_absentBeside
      · rintro item rfl
        exact habsent item hu
      · rintro item rfl
        exact habsent item hv
    rw [hfill hx hy] at hxy
    rw [hfill hy hz] at hyz
    rw [hfill hx hz]
    exact Std.TransCmp.isLE_trans hxy hyz
  · obtain ⟨l, rfl⟩ := Option.ne_none_iff_exists'.mp (ne_of_mem_of_not_mem hx hmissing)
    obtain ⟨m, rfl⟩ := Option.ne_none_iff_exists'.mp (ne_of_mem_of_not_mem hy hmissing)
    obtain ⟨r, rfl⟩ := Option.ne_none_iff_exists'.mp (ne_of_mem_of_not_mem hz hmissing)
    have hlr : (compareItem l r).isLE := Std.TransCmp.isLE_trans hxy hyz
    exact hlr

/-- Three versions, by their items, that are equal up to a place where the first one has ended, the
second one goes on with a number and the third one with a qualifier. The rest of the second one is
no newer than nothing at all, and that of the third one is no older. -/
inductive Conflict : List Item → List Item → List Item → Prop
  | here {n : Nat} {word : String} {numbered qualified : List Item}
      (notNewer : (compareItems (.number n :: numbered) []).isLE)
      (notOlder : (compareItems [] (.qualifier word :: qualified)).isLE) :
      Conflict [] (.number n :: numbered) (.qualifier word :: qualified)
  | later {ended numbered qualified : List Item}
      (hen : compareHeads ended.head? numbered.head? = .eq)
      (hnq : compareHeads numbered.head? qualified.head? = .eq)
      (hqe : compareHeads qualified.head? ended.head? = .eq)
      (rest : Conflict ended.tail numbered.tail qualified.tail) :
      Conflict ended numbered qualified

/-- A conflict is a circle: the numbered version is no newer than the one that has ended, and that
one is no newer than the qualified version, but the numbered version is newer than the qualified
one. -/
theorem Conflict.circle {ended numbered qualified : List Item}
    (h : Conflict ended numbered qualified) :
    (compareItems numbered ended).isLE ∧ (compareItems ended qualified).isLE ∧
      compareItems numbered qualified = .gt := by
  induction h with
  | here notNewer notOlder => exact ⟨notNewer, notOlder, by simp [compareItems, compareItem]⟩
  | @later ended numbered qualified hen hnq hqe rest ih =>
    rw [compareItems_eq_then numbered ended, Std.OrientedCmp.eq_symm hen,
      compareItems_eq_then ended qualified, Std.OrientedCmp.eq_symm hqe,
      compareItems_eq_then numbered qualified, hnq]
    exact ih

/-- Where one of three versions in a circle has ended and the heads of the others are a number and a
qualifier, the three conflict. -/
theorem conflict_of_allKinds_nil {a c : List Item}
    (hkinds : AllKinds [a.head?, none, c.head?]) (ha : (compareItems a []).isLE)
    (hc : (compareItems [] c).isLE) (hca : (compareItems c a).isLE) : Conflict [] a c := by
  rcases a with _ | ⟨n | word, a⟩ <;> rcases c with _ | ⟨m | word', c⟩ <;>
    simp [AllKinds] at hkinds
  · exact .here ha hc
  · simp [compareItems, compareItem] at hca

/-- The heads of three versions in a circle are equal, unless they are of all kinds. -/
theorem heads_eq_of_circle {x y z : Option Item} (h : ¬AllKinds [x, y, z])
    (hxy : (compareHeads x y).isLE) (hyz : (compareHeads y z).isLE)
    (hzx : (compareHeads z x).isLE) :
    compareHeads y x = .eq ∧ compareHeads x z = .eq ∧ compareHeads z y = .eq := by
  have hyx : (compareHeads y x).isLE :=
    compareHeads_isLE_trans h (y := z) (by simp) (by simp) (by simp) hyz hzx
  have hxz : (compareHeads x z).isLE :=
    compareHeads_isLE_trans h (y := y) (by simp) (by simp) (by simp) hxy hyz
  have hzy : (compareHeads z y).isLE :=
    compareHeads_isLE_trans h (y := x) (by simp) (by simp) (by simp) hzx hxy
  exact ⟨Std.OrientedCmp.isLE_antisymm hyx hxy, Std.OrientedCmp.isLE_antisymm hxz hzx,
    Std.OrientedCmp.isLE_antisymm hzy hyz⟩

/-- Three versions in a circle conflict, in one of the turns of the circle. -/
theorem conflict_of_circle (size : Nat) {a b c : List Item} (ha : a.length ≤ size)
    (hb : b.length ≤ size) (hc : c.length ≤ size) (hab : (compareItems a b).isLE)
    (hbc : (compareItems b c).isLE) (hca : compareItems c a = .lt) :
    Conflict b a c ∨ Conflict a c b ∨ Conflict c b a := by
  induction size generalizing a b c with
  | zero =>
    rw [List.length_eq_zero_iff.mp (Nat.le_zero.mp ha),
      List.length_eq_zero_iff.mp (Nat.le_zero.mp hc)] at hca
    simp [compareItems] at hca
  | succ size ih =>
    by_cases hkinds : AllKinds [a.head?, b.head?, c.head?]
    · have hca' : (compareItems c a).isLE := Ordering.isLE_of_eq_lt hca
      have hmissing := hkinds.1
      simp only [List.mem_cons, List.not_mem_nil, or_false, Eq.comm (a := none),
        List.head?_eq_none_iff] at hmissing
      rcases hmissing with rfl | rfl | rfl
      · exact Or.inr (Or.inl (conflict_of_allKinds_nil (hkinds.mono (by simp)) hca' hab hbc))
      · exact Or.inl (conflict_of_allKinds_nil hkinds hab hbc hca')
      · exact Or.inr (Or.inr (conflict_of_allKinds_nil (hkinds.mono (by simp)) hbc hca' hab))
    · rw [compareItems_eq_then] at hab hbc hca
      have hle := Ordering.isLE_of_eq_lt hca
      obtain ⟨hba, hac, hcb⟩ := heads_eq_of_circle hkinds
        (Ordering.isLE_left_of_isLE_then hab) (Ordering.isLE_left_of_isLE_then hbc)
        (Ordering.isLE_left_of_isLE_then hle)
      rw [Std.OrientedCmp.eq_symm hba] at hab
      rw [Std.OrientedCmp.eq_symm hcb] at hbc
      rw [Std.OrientedCmp.eq_symm hac] at hca
      have hrest := ih (by simp only [List.length_tail]; omega)
        (by simp only [List.length_tail]; omega) (by simp only [List.length_tail]; omega)
        hab hbc hca
      rcases hrest with hrest | hrest | hrest
      · exact Or.inl (.later hba hac hcb hrest)
      · exact Or.inr (Or.inl (.later hac hcb hba hrest))
      · exact Or.inr (Or.inr (.later hcb hba hac hrest))

/-- The comparison is a total preorder on some versions. -/
structure IsPreorderOn (versions : Set String) : Prop where
  refl : ∀ a ∈ versions, compare a a = .eq
  swap : ∀ a ∈ versions, ∀ b ∈ versions, compare b a = (compare a b).swap
  trans : ∀ a ∈ versions, ∀ b ∈ versions, ∀ c ∈ versions,
    compare a b ≠ .gt → compare b c ≠ .gt → compare a c ≠ .gt

theorem IsPreorderOn.not_conflict {versions : Set String} (h : IsPreorderOn versions)
    {ended numbered qualified : String} (hended : ended ∈ versions)
    (hnumbered : numbered ∈ versions) (hqualified : qualified ∈ versions) :
    ¬Conflict (items ended) (items numbered) (items qualified) := by
  intro hconflict
  obtain ⟨hne, heq, hnq⟩ := hconflict.circle
  exact h.trans numbered hnumbered ended hended qualified hqualified
    (Ordering.isLE_iff_ne_gt.mp hne) (Ordering.isLE_iff_ne_gt.mp heq) hnq

theorem isPreorderOn_of_not_conflict {versions : Set String}
    (hnone : ∀ ended ∈ versions, ∀ numbered ∈ versions, ∀ qualified ∈ versions,
      ¬Conflict (items ended) (items numbered) (items qualified)) : IsPreorderOn versions := by
  refine ⟨fun a _ => compare_self a, fun a _ b _ => compare_swap a b, ?_⟩
  intro a ha b hb c hc hab hbc hac
  have hca : compare c a = .lt := Std.OrientedCmp.lt_of_gt hac
  let size := max (items a).length (max (items b).length (items c).length)
  rcases conflict_of_circle size (by omega) (by omega) (by omega)
    (Ordering.isLE_iff_ne_gt.mpr hab) (Ordering.isLE_iff_ne_gt.mpr hbc) hca with h | h | h
  · exact hnone b hb a ha c hc h
  · exact hnone a ha c hc b hb h
  · exact hnone c hc b hb a ha h

def Item.isNumber : Item → Bool
  | .number _ => true
  | .qualifier _ => false

theorem Conflict.exists_qualifier {ended numbered qualified : List Item}
    (h : Conflict ended numbered qualified) : ∃ item ∈ qualified, item.isNumber = false := by
  induction h with
  | here notNewer notOlder => exact ⟨_, List.mem_cons_self, rfl⟩
  | later hen hnq hqe rest ih =>
    obtain ⟨item, hitem, hkind⟩ := ih
    exact ⟨item, List.mem_of_mem_tail hitem, hkind⟩

/-- Versions made of numbers alone are ordered totally. -/
theorem isPreorderOn_of_all_isNumber {versions : Set String}
    (hnumbers : ∀ version ∈ versions, (items version).all Item.isNumber) :
    IsPreorderOn versions := by
  apply isPreorderOn_of_not_conflict
  intro ended _ numbered _ qualified hqualified hconflict
  obtain ⟨item, hitem, hkind⟩ := hconflict.exists_qualifier
  have htrue := List.all_eq_true.mp (hnumbers qualified hqualified) item hitem
  rw [hkind] at htrue
  contradiction

/-- Every version equals itself, and turning a comparison around turns its outcome around. Some
versions are ordered totally exactly if no three of them conflict. -/
theorem isPreorderOn_iff_not_conflict (versions : Set String) :
    (∀ a, compare a a = .eq) ∧ (∀ a b, compare b a = (compare a b).swap) ∧
      (IsPreorderOn versions ↔ ∀ ended ∈ versions, ∀ numbered ∈ versions,
        ∀ qualified ∈ versions, ¬Conflict (items ended) (items numbered) (items qualified)) :=
  ⟨compare_self, compare_swap,
    fun h _ hended _ hnumbered _ hqualified => h.not_conflict hended hnumbered hqualified,
    isPreorderOn_of_not_conflict⟩

/-- The release 1.0 equals 1.0.0 and is older than its service pack, but 1.0.0 is newer than it. -/
theorem not_isPreorderOn_univ :
    compare "1.0" "1.0.0" = .eq ∧ compare "1.0-sp1" "1.0" = .gt ∧
      compare "1.0-sp1" "1.0.0" = .lt ∧ ¬IsPreorderOn Set.univ := by
  have hshort : items "1.0" = [.number 1, .number 0] := by decide +kernel
  have hlong : items "1.0.0" = [.number 1, .number 0, .number 0] := by decide +kernel
  have hpack : items "1.0-sp1" = [.number 1, .number 0, .qualifier "sp", .number 1] := by
    decide +kernel
  have heq : compare "1.0" "1.0.0" = .eq := by
    rw [compare, hshort, hlong]
    simp only [compareItems]
    rfl
  have hgt : compare "1.0-sp1" "1.0" = .gt := by
    rw [compare, hpack, hshort]
    simp only [compareItems]
    rfl
  have hlt : compare "1.0-sp1" "1.0.0" = .lt := by
    rw [compare, hpack, hlong]
    simp only [compareItems]
    rfl
  refine ⟨heq, hgt, hlt, fun horder => ?_⟩
  exact horder.trans "1.0-sp1" trivial "1.0.0" trivial "1.0" trivial (by rw [hlt]; decide)
    (by rw [compare_swap, heq]; decide) hgt

end ReleaseNotes.Version
