import Mathlib.Data.String.Basic
import Mathlib.Tactic.Ring
import ReleaseNotes.Text.Blank
import ReleaseNotes.Text.Digits

/-!
Numbers by their digits. The first digit counts most, so numbers with as many digits are in the
order of their texts, and each number has only one text with so many digits.
-/

namespace ReleaseNotes.Text

theorem toNat_bounds_of_isDigit {c : Char} (h : c.isDigit = true) :
    48 ≤ c.toNat ∧ c.toNat ≤ 57 := by
  simp only [Char.isDigit, Bool.and_eq_true, decide_eq_true_eq, UInt32.le_iff_toNat_le] at h
  exact h

theorem isBlank_of_isDigit {c : Char} (h : c.isDigit = true) : isBlank c = false := by
  obtain ⟨hlow, hhigh⟩ := toNat_bounds_of_isDigit h
  simp only [isBlank, Bool.or_eq_false_iff, Bool.and_eq_false_iff, decide_eq_false_iff_not,
    beq_eq_false_iff_ne]
  omega

/-- What was read before counts for one power of the base more with every digit. -/
theorem foldl_eq_add (base start : ℕ) (values : List ℕ) :
    values.foldl (fun n value => base * n + value) start =
      start * base ^ values.length + valueInBase base values := by
  unfold valueInBase
  induction values generalizing start with
  | nil => simp
  | cons value values ih =>
    rw [List.foldl_cons, List.foldl_cons, ih (base * start + value), ih (base * 0 + value),
      List.length_cons, pow_succ]
    ring

theorem valueOfDigits_cons (c : Char) (digits : List Char) :
    valueOfDigits (c :: digits) =
      digitValue c * 10 ^ digits.length + valueOfDigits digits := by
  have h := foldl_eq_add 10 (digitValue c) (digits.map digitValue)
  rw [List.length_map] at h
  unfold valueOfDigits valueInBase
  rw [List.map_cons, List.foldl_cons, Nat.mul_zero, Nat.zero_add, h]
  rfl

theorem digitValue_lt {c : Char} (h : c.isDigit = true) : digitValue c < 10 := by
  obtain ⟨hlow, hhigh⟩ := toNat_bounds_of_isDigit h
  have hzero : '0'.toNat = 48 := rfl
  unfold digitValue
  omega

theorem digitValue_lt_iff {c d : Char} (hc : c.isDigit = true) (hd : d.isDigit = true) :
    digitValue c < digitValue d ↔ c < d := by
  obtain ⟨hlow, hhigh⟩ := toNat_bounds_of_isDigit hc
  obtain ⟨hlow', hhigh'⟩ := toNat_bounds_of_isDigit hd
  have hzero : '0'.toNat = 48 := rfl
  have hlt : c < d ↔ c.toNat < d.toNat := Iff.rfl
  rw [hlt]
  unfold digitValue
  omega

theorem valueOfDigits_lt {digits : List Char} (h : ∀ c ∈ digits, c.isDigit = true) :
    valueOfDigits digits < 10 ^ digits.length := by
  induction digits with
  | nil => exact Nat.one_pos
  | cons c digits ih =>
    obtain ⟨hc, hdigits⟩ := List.forall_mem_cons.mp h
    calc
      valueOfDigits (c :: digits) = digitValue c * 10 ^ digits.length + valueOfDigits digits :=
        valueOfDigits_cons c digits
      _ < digitValue c * 10 ^ digits.length + 10 ^ digits.length :=
        Nat.add_lt_add_left (ih hdigits) _
      _ = (digitValue c + 1) * 10 ^ digits.length := (Nat.succ_mul _ _).symm
      _ ≤ 10 * 10 ^ digits.length := Nat.mul_le_mul_right _ (digitValue_lt hc)
      _ = 10 ^ (c :: digits).length := by rw [List.length_cons, pow_succ, Nat.mul_comm]

/-- The first digit decides before all others. -/
theorem add_lt_add_iff_of_lt {size first second rest other : ℕ} (hrest : rest < size)
    (hother : other < size) :
    first * size + rest < second * size + other ↔
      first < second ∨ first = second ∧ rest < other := by
  rcases lt_trichotomy first second with hlt | rfl | hgt
  · have hmul := Nat.mul_le_mul_right size (Nat.succ_le_of_lt hlt)
    rw [Nat.succ_mul] at hmul
    omega
  · omega
  · have hmul := Nat.mul_le_mul_right size (Nat.succ_le_of_lt hgt)
    rw [Nat.succ_mul] at hmul
    omega

/-- Among digits of the same length, the order of texts is that of numbers. -/
theorem lt_iff_valueOfDigits_lt {left right : List Char}
    (hleft : ∀ c ∈ left, c.isDigit = true) (hright : ∀ c ∈ right, c.isDigit = true)
    (hlength : left.length = right.length) :
    left < right ↔ valueOfDigits left < valueOfDigits right := by
  induction left generalizing right with
  | nil =>
    obtain rfl := List.length_eq_zero_iff.mp hlength.symm
    simp
  | cons c left ih =>
    cases right with
    | nil => exact absurd hlength (Nat.succ_ne_zero left.length)
    | cons d right =>
      obtain ⟨hc, hleft⟩ := List.forall_mem_cons.mp hleft
      obtain ⟨hd, hright⟩ := List.forall_mem_cons.mp hright
      have hrests : left.length = right.length := Nat.succ.inj hlength
      have hvalue : digitValue c = digitValue d ↔ c = d := by
        have hlt := digitValue_lt_iff hc hd
        have hgt := digitValue_lt_iff hd hc
        rcases lt_trichotomy c d with h | rfl | h
        · exact iff_of_false (hlt.mpr h).ne h.ne
        · exact iff_of_true rfl rfl
        · exact iff_of_false (hgt.mpr h).ne' h.ne'
      have hbound := valueOfDigits_lt hleft
      rw [hrests] at hbound
      rw [List.cons_lt_cons_iff, valueOfDigits_cons, valueOfDigits_cons, hrests,
        add_lt_add_iff_of_lt hbound (valueOfDigits_lt hright), digitValue_lt_iff hc hd, hvalue,
        ih hleft hright hrests]

/-- Numbers with as many digits are in the order of their texts. -/
theorem compare_ofList_of_length_eq {left right : List Char}
    (hleft : ∀ c ∈ left, c.isDigit = true) (hright : ∀ c ∈ right, c.isDigit = true)
    (hlength : left.length = right.length) :
    Ord.compare (String.ofList left) (String.ofList right) =
      Ord.compare (valueOfDigits left) (valueOfDigits right) := by
  have hlt := lt_iff_valueOfDigits_lt hleft hright hlength
  have hgt := lt_iff_valueOfDigits_lt hright hleft hlength.symm
  rcases lt_trichotomy left right with h | rfl | h
  · have htexts : String.ofList left < String.ofList right := by
      rwa [String.lt_iff_toList_lt, String.toList_ofList, String.toList_ofList]
    rw [compare_lt_iff_lt.mpr htexts, compare_lt_iff_lt.mpr (hlt.mp h)]
  · rw [Std.compare_self, Std.compare_self]
  · have htexts : String.ofList right < String.ofList left := by
      rwa [String.lt_iff_toList_lt, String.toList_ofList, String.toList_ofList]
    rw [compare_gt_iff_gt.mpr htexts, compare_gt_iff_gt.mpr (hgt.mp h)]

end ReleaseNotes.Text
