import Mathlib.Algebra.GroupWithZero.Nat
import ReleaseNotes.Proofs.Text.Trimming
import ReleaseNotes.Proofs.Version.Endless
import ReleaseNotes.Proofs.Version.Items

/-!
Versions made of digits with dots between them. They are compared as lists of numbers as long as the
numbers stay below two to the power of 64. A longer number is a word of digits: it is older than any
short number, and two of them are compared as texts, which is right for numbers with as many digits.
Wherever such a number decides, the order may hence differ from that of the numbers, and there is no
other way for it to do so.
-/

namespace ReleaseNotes.Version

open Text

def dotted (runs : List (List Char)) : String :=
  String.ofList (['.'].intercalate runs)

def Fits (run : List Char) : Prop := valueOfDigits run < 2 ^ 64

instance : DecidablePred Fits := fun _ => inferInstanceAs (Decidable (_ < _))

theorem itemsOf_intercalate {runs : List (List Char)} (h : ∀ run ∈ runs, IsRun true run) :
    itemsOf (['.'].intercalate runs) = runs.map Item.ofRun := by
  induction runs with
  | nil => rfl
  | cons run runs ih =>
    obtain ⟨hrun, hruns⟩ := List.forall_mem_cons.mp h
    cases runs with
    | nil =>
      have hitems := itemsOf_run_append hrun (stops_nil true)
      rw [List.append_nil] at hitems
      rw [List.intercalate_singleton, hitems]
      rfl
    | cons next runs =>
      have hdot : isSeparator '.' = true := rfl
      rw [List.intercalate_cons_cons, List.append_assoc, List.singleton_append,
        itemsOf_run_append hrun (stops_separator_cons true hdot _), itemsOf_separator_cons hdot,
        ih hruns]
      rfl

theorem isBlank_of_mem_intercalate {runs : List (List Char)}
    (h : ∀ run ∈ runs, IsRun true run) {c : Char} (hc : c ∈ ['.'].intercalate runs) :
    isBlank c = false := by
  induction runs with
  | nil => contradiction
  | cons run runs ih =>
    obtain ⟨hrun, hruns⟩ := List.forall_mem_cons.mp h
    have hdigits : ∀ d ∈ run, isBlank d = false :=
      fun d hd => isBlank_of_isDigit (hrun.isDigit_eq d hd)
    cases runs with
    | nil =>
      rw [List.intercalate_singleton] at hc
      exact hdigits c hc
    | cons next runs =>
      rw [List.intercalate_cons_cons, List.append_assoc, List.singleton_append, List.mem_append,
        List.mem_cons] at hc
      rcases hc with hc | rfl | hc
      · exact hdigits c hc
      · rfl
      · exact ih hruns hc

theorem items_dotted {runs : List (List Char)} (h : ∀ run ∈ runs, IsRun true run) :
    items (dotted runs) = runs.map Item.ofRun := by
  rw [items_eq, dotted, String.toList_ofList,
    trimChars_of_forall fun c hc => isBlank_of_mem_intercalate h hc, itemsOf_intercalate h]

/-- No qualifier with a place of its own has digits. -/
theorem qualifierRank_of_digits {run : List Char} (hrun : IsRun true run) :
    qualifierRank (String.ofList run) = (7, String.ofList run) := by
  have hletters : ∀ word ∈ aliases ++ knownQualifiers,
      word.toList.all (fun c => !c.isDigit) = true := by decide
  apply qualifierRank_of_notMem
  intro hmem
  exact ofList_ne_of_isRun hrun (hletters _ hmem) rfl

/-- Two numbers that are too long are compared by their texts. -/
theorem compareQualifiers_of_digits {left right : List Char} (hleft : IsRun true left)
    (hright : IsRun true right) :
    compareQualifiers (String.ofList left) (String.ofList right) =
      Ord.compare (String.ofList left) (String.ofList right) := by
  rw [compareQualifiers, qualifierRank_of_digits hleft, qualifierRank_of_digits hright]
  rfl

/-- Beside a missing item, a number is compared with zero, and so is one that is too long. -/
theorem compareItem_ofRun_absentBeside {run : List Char} (hrun : IsRun true run) :
    compareItem (Item.ofRun run) (Item.ofRun run).absentBeside =
      Ord.compare (valueOfDigits run) 0 := by
  rcases Nat.lt_or_ge (valueOfDigits run) UInt64.size with hlt | hle
  · rw [ofRun_of_lt hrun hlt]
    rfl
  · have hplain : qualifierRank "" = (5, "") := rfl
    have hpositive : 0 < valueOfDigits run := Nat.lt_of_lt_of_le (by decide) hle
    rw [ofRun_of_le hrun hle, Item.absentBeside, compareItem, compareQualifiers,
      qualifierRank_of_digits hrun, hplain, compare_gt_iff_gt.mpr hpositive]
    rfl

def Stands (item : Item) (value : ℕ) : Prop :=
  ∃ run, IsRun true run ∧ Item.ofRun run = item ∧ valueOfDigits run = value

theorem Stands.compareItem_absentBeside {item : Item} {value : ℕ} (h : Stands item value) :
    compareItem item item.absentBeside = Ord.compare value 0 := by
  obtain ⟨run, hrun, rfl, rfl⟩ := h
  exact compareItem_ofRun_absentBeside hrun

theorem forall₂_stands {runs : List (List Char)} (h : ∀ run ∈ runs, IsRun true run) :
    List.Forall₂ Stands (runs.map Item.ofRun) (runs.map valueOfDigits) := by
  rw [List.forall₂_map_left_iff, List.forall₂_map_right_iff, List.forall₂_same]
  exact fun run hrun => ⟨run, h run hrun, rfl, rfl⟩

theorem compareItem_ofRun_of_fits {l r : List Char} (hl : IsRun true l) (hr : IsRun true r)
    (hlfits : Fits l) (hrfits : Fits r) :
    compareItem (Item.ofRun l) (Item.ofRun r) =
      Ord.compare (valueOfDigits l) (valueOfDigits r) := by
  rw [ofRun_of_lt hl hlfits, ofRun_of_lt hr hrfits]
  rfl

/-- Numerals that do not fit are compared as texts. -/
theorem compareItem_ofRun_of_not_fits {l r : List Char} (hl : IsRun true l) (hr : IsRun true r)
    (hllong : ¬Fits l) (hrlong : ¬Fits r) :
    compareItem (Item.ofRun l) (Item.ofRun r) =
      Ord.compare (String.ofList l) (String.ofList r) := by
  rw [ofRun_of_le hl (Nat.le_of_not_lt hllong), ofRun_of_le hr (Nat.le_of_not_lt hrlong)]
  exact compareQualifiers_of_digits hl hr

/-- A number that is too long seems older than one that is not, although it is larger. -/
theorem compareItem_ofRun_of_mixed {l r : List Char} (hl : IsRun true l) (hr : IsRun true r)
    (hlfits : Fits l) (hrlong : ¬Fits r) :
    compareItem (Item.ofRun l) (Item.ofRun r) = .gt ∧
      Ord.compare (valueOfDigits l) (valueOfDigits r) = .lt := by
  have hle : 2 ^ 64 ≤ valueOfDigits r := Nat.le_of_not_lt hrlong
  rw [ofRun_of_lt hl hlfits, ofRun_of_le hr hle]
  exact ⟨rfl, compare_lt_iff_lt.mpr (Nat.lt_of_lt_of_le hlfits hle)⟩

theorem compare_ofList_ne_eq {l r : List Char} (h : l ≠ r) :
    Ord.compare (String.ofList l) (String.ofList r) ≠ .eq := by
  intro htexts
  exact h (String.ofList_injective (Std.LawfulEqOrd.eq_of_compare htexts))

theorem then_of_ne_eq {first : Ordering} (h : first ≠ .eq) (second : Ordering) :
    first.then second = first := by
  cases first with
  | lt => rfl
  | eq => contradiction
  | gt => rfl

theorem then_eq_then_iff {first second other : Ordering} :
    first.then second = first.then other ↔ first ≠ .eq ∨ second = other := by
  cases first with
  | lt => simp
  | eq => simp
  | gt => simp

/-- Versions made of digits are compared as lists of numbers. -/
def AsNumbers (left right : List (List Char)) : Prop :=
  compareItems (left.map Item.ofRun) (right.map Item.ofRun) =
    Ord.compare (endless (left.map valueOfDigits)) (endless (right.map valueOfDigits))

section Heads

variable {l r : List Char} {left right : List (List Char)} (hl : IsRun true l) (hr : IsRun true r)

include hl hr

theorem asNumbers_cons_iff_of_fits (hlfits : Fits l) (hrfits : Fits r) :
    AsNumbers (l :: left) (r :: right) ↔
      valueOfDigits l ≠ valueOfDigits r ∨ AsNumbers left right := by
  simp only [AsNumbers, List.map_cons]
  rw [compareItems, compareItem_ofRun_of_fits hl hr hlfits hrfits, compare_endless_cons,
    then_eq_then_iff, Ne, compare_eq_iff_eq]

/-- Where only one of two numerals fits, they are not compared as numbers. -/
theorem not_asNumbers_cons_of_mixed (h : ¬(Fits l ↔ Fits r)) :
    ¬AsNumbers (l :: left) (r :: right) := by
  simp only [AsNumbers, List.map_cons]
  rw [compareItems, compare_endless_cons]
  by_cases hlfits : Fits l
  · have hrlong : ¬Fits r := fun hrfits => h (iff_of_true hlfits hrfits)
    obtain ⟨hgt, hlt⟩ := compareItem_ofRun_of_mixed hl hr hlfits hrlong
    rw [hgt, hlt, Ordering.gt_then, Ordering.lt_then]
    decide
  · have hrfits : Fits r := by
      by_contra hrlong
      exact h (iff_of_false hlfits hrlong)
    obtain ⟨hgt, hlt⟩ := compareItem_ofRun_of_mixed hr hl hrfits hlfits
    rw [Std.OrientedCmp.lt_of_gt hgt, Std.OrientedCmp.gt_of_lt hlt, Ordering.lt_then,
      Ordering.gt_then]
    decide

theorem asNumbers_cons_iff_of_not_fits (hllong : ¬Fits l) (hrlong : ¬Fits r) (hne : l ≠ r) :
    AsNumbers (l :: left) (r :: right) ↔
      Ord.compare (String.ofList l) (String.ofList r) =
        (Ord.compare (valueOfDigits l) (valueOfDigits r)).then
          (Ord.compare (endless (left.map valueOfDigits))
            (endless (right.map valueOfDigits))) := by
  simp only [AsNumbers, List.map_cons]
  rw [compareItems, compareItem_ofRun_of_not_fits hl hr hllong hrlong,
    then_of_ne_eq (compare_ofList_ne_eq hne), compare_endless_cons]

end Heads

theorem asNumbers_cons_self (run : List Char) {left right : List (List Char)} :
    AsNumbers (run :: left) (run :: right) ↔ AsNumbers left right := by
  have hself : compareItem (Item.ofRun run) (Item.ofRun run) = .eq := Std.ReflCmp.compare_self
  simp only [AsNumbers, List.map_cons]
  rw [compareItems, hself, compare_endless_cons, Std.compare_self, Ordering.eq_then,
    Ordering.eq_then]

/-- After runs that are the same, a number that is too long decides in the wrong way: beside one
that is not, or because the texts of two of them are not in the order of the numbers, or because it
has more zeros in front than the same number beside it. -/
inductive Misjudged : List (List Char) → List (List Char) → Prop
  | mixed {l r : List Char} {left right : List (List Char)} (h : ¬(Fits l ↔ Fits r)) :
      Misjudged (l :: left) (r :: right)
  | spelled {l r : List Char} {left right : List (List Char)} (hl : ¬Fits l) (hr : ¬Fits r)
      (hvalue : valueOfDigits l ≠ valueOfDigits r)
      (h : Ord.compare (String.ofList l) (String.ofList r) ≠
        Ord.compare (valueOfDigits l) (valueOfDigits r)) :
      Misjudged (l :: left) (r :: right)
  | padded {l r : List Char} {left right : List (List Char)} (hl : ¬Fits l) (hne : l ≠ r)
      (hvalue : valueOfDigits l = valueOfDigits r)
      (h : Ord.compare (String.ofList l) (String.ofList r) ≠
        Ord.compare (endless (left.map valueOfDigits)) (endless (right.map valueOfDigits))) :
      Misjudged (l :: left) (r :: right)
  | later {l r : List Char} {left right : List (List Char)}
      (hsame : l = r ∨ Fits l ∧ valueOfDigits l = valueOfDigits r)
      (hrest : Misjudged left right) : Misjudged (l :: left) (r :: right)

theorem misjudged_cons_self (run : List Char) {left right : List (List Char)} :
    Misjudged (run :: left) (run :: right) ↔ Misjudged left right := by
  constructor
  · intro h
    cases h with
    | mixed h => exact absurd Iff.rfl h
    | spelled _ _ hvalue => exact absurd rfl hvalue
    | padded _ hne => exact absurd rfl hne
    | later _ hrest => exact hrest
  · intro hrest
    exact .later (Or.inl rfl) hrest

/-- Behind numerals that fit, a mistake matters only if these are equal. -/
theorem misjudged_cons_iff_of_fits {l r : List Char} {left right : List (List Char)}
    (hl : Fits l) (hr : Fits r) :
    Misjudged (l :: left) (r :: right) ↔
      valueOfDigits l = valueOfDigits r ∧ Misjudged left right := by
  constructor
  · intro h
    cases h with
    | mixed h => exact absurd (iff_of_true hl hr) h
    | spelled hlong => exact absurd hl hlong
    | padded hlong => exact absurd hl hlong
    | later hsame hrest =>
      rcases hsame with rfl | ⟨-, heq⟩
      · exact ⟨rfl, hrest⟩
      · exact ⟨heq, hrest⟩
  · rintro ⟨heq, hrest⟩
    exact .later (Or.inr ⟨hl, heq⟩) hrest

theorem misjudged_cons_iff_of_not_fits {l r : List Char} {left right : List (List Char)}
    (hl : ¬Fits l) (hr : ¬Fits r) (hne : l ≠ r) :
    Misjudged (l :: left) (r :: right) ↔
      Ord.compare (String.ofList l) (String.ofList r) ≠
        (Ord.compare (valueOfDigits l) (valueOfDigits r)).then
          (Ord.compare (endless (left.map valueOfDigits))
            (endless (right.map valueOfDigits))) := by
  by_cases hvalue : valueOfDigits l = valueOfDigits r
  · rw [compare_eq_iff_eq.mpr hvalue, Ordering.eq_then]
    constructor
    · intro h
      cases h with
      | mixed h => exact absurd (iff_of_false hl hr) h
      | spelled _ _ hdiffer => exact absurd hvalue hdiffer
      | padded _ _ _ h => exact h
      | later hsame =>
        rcases hsame with rfl | ⟨hfits, -⟩
        · exact absurd rfl hne
        · exact absurd hfits hl
    · intro h
      exact .padded hl hne hvalue h
  · have hvalues : Ord.compare (valueOfDigits l) (valueOfDigits r) ≠ .eq := by
      rwa [Ne, compare_eq_iff_eq]
    rw [then_of_ne_eq hvalues]
    constructor
    · intro h
      cases h with
      | mixed h => exact absurd (iff_of_false hl hr) h
      | spelled _ _ _ h => exact h
      | padded _ _ heq => exact absurd heq hvalue
      | later hsame =>
        rcases hsame with rfl | ⟨hfits, -⟩
        · exact absurd rfl hne
        · exact absurd hfits hl
    · intro h
      exact .spelled hl hr hvalue h

/-- Versions made of digits are compared as numbers unless a number that is too long is in the
way. -/
theorem asNumbers_iff_not_misjudged {left right : List (List Char)}
    (hleft : ∀ run ∈ left, IsRun true run) (hright : ∀ run ∈ right, IsRun true run) :
    AsNumbers left right ↔ ¬Misjudged left right := by
  induction left generalizing right with
  | nil =>
    have hitems : AsNumbers [] right :=
      nil_compareItems_of_measures Stands.compareItem_absentBeside (forall₂_stands hright)
    exact iff_of_true hitems nofun
  | cons l left ih =>
    cases right with
    | nil =>
      have hitems : AsNumbers (l :: left) [] :=
        compareItems_nil_of_measures Stands.compareItem_absentBeside (forall₂_stands hleft)
      exact iff_of_true hitems nofun
    | cons r right =>
      obtain ⟨hl, hlefts⟩ := List.forall_mem_cons.mp hleft
      obtain ⟨hr, hrights⟩ := List.forall_mem_cons.mp hright
      -- The rest decides only after runs that are the same, and both sides then turn to the rest.
      by_cases hmixed : Fits l ↔ Fits r
      · by_cases hlfits : Fits l
        · have hrfits : Fits r := hmixed.mp hlfits
          rw [misjudged_cons_iff_of_fits hlfits hrfits,
            asNumbers_cons_iff_of_fits hl hr hlfits hrfits, ih hlefts hrights, not_and_or]
        · have hrlong : ¬Fits r := fun hrfits => hlfits (hmixed.mpr hrfits)
          by_cases hsame : l = r
          · subst hsame
            rw [misjudged_cons_self, asNumbers_cons_self, ih hlefts hrights]
          · rw [misjudged_cons_iff_of_not_fits hlfits hrlong hsame,
              asNumbers_cons_iff_of_not_fits hl hr hlfits hrlong hsame, not_not]
      · exact iff_of_false (not_asNumbers_cons_of_mixed hl hr hmixed)
          (not_not_intro (.mixed hmixed))

def Comparable (l r : List Char) : Prop :=
  Fits l ∧ Fits r ∨ ¬Fits l ∧ ¬Fits r ∧ l.length = r.length

instance (l r : List Char) : Decidable (Comparable l r) :=
  inferInstanceAs (Decidable (_ ∨ _))

/-- No number is misjudged if the runs at each place are comparable. -/
theorem not_misjudged_of_comparable {left right : List (List Char)}
    (hleft : ∀ run ∈ left, IsRun true run) (hright : ∀ run ∈ right, IsRun true run)
    (h : ∀ pair ∈ left.zip right, Comparable pair.1 pair.2) : ¬Misjudged left right := by
  intro hmisjudged
  induction hmisjudged with
  | @mixed l r left right hkinds =>
    rcases h (l, r) List.mem_cons_self with ⟨hl, hr⟩ | ⟨hl, hr, -⟩
    · exact hkinds (iff_of_true hl hr)
    · exact hkinds (iff_of_false hl hr)
  | @spelled l r left right hl hr hvalue horder =>
    rcases h (l, r) List.mem_cons_self with ⟨hfits, -⟩ | ⟨-, -, hlength⟩
    · exact hl hfits
    · exact horder (compare_ofList_of_length_eq (hleft l List.mem_cons_self).isDigit_eq
        (hright r List.mem_cons_self).isDigit_eq hlength)
  | @padded l r left right hl hne hvalue horder =>
    rcases h (l, r) List.mem_cons_self with ⟨hfits, -⟩ | ⟨-, -, hlength⟩
    · exact hl hfits
    · have htexts := compare_ofList_of_length_eq (hleft l List.mem_cons_self).isDigit_eq
        (hright r List.mem_cons_self).isDigit_eq hlength
      rw [compare_eq_iff_eq.mpr hvalue] at htexts
      exact compare_ofList_ne_eq hne htexts
  | @later l r left right hsame hrest ih =>
    exact ih (fun run hrun => hleft run (List.mem_cons_of_mem _ hrun))
      (fun run hrun => hright run (List.mem_cons_of_mem _ hrun))
      (fun pair hpair => h pair (List.mem_cons_of_mem _ hpair))

/-- The comparison is that of the numbers, the shorter version going on with zeros, exactly if no
number that is too long decides in the wrong way. -/
theorem compare_dotted_iff_not_misjudged {left right : List (List Char)}
    (hleft : ∀ run ∈ left, isDigits run = true) (hright : ∀ run ∈ right, isDigits run = true) :
    compare (dotted left) (dotted right) =
      Ord.compare (endless (left.map valueOfDigits)) (endless (right.map valueOfDigits)) ↔
    ¬Misjudged left right := by
  have hl : ∀ run ∈ left, IsRun true run := fun run hrun => isRun_of_isDigits (hleft run hrun)
  have hr : ∀ run ∈ right, IsRun true run := fun run hrun => isRun_of_isDigits (hright run hrun)
  rw [compare, items_dotted hl, items_dotted hr]
  exact asNumbers_iff_not_misjudged hl hr

/-- Two long numbers with as many digits. -/
theorem compare_long_build_numbers :
    ¬Misjudged ["1".toList, "20240115093012123456789".toList]
        ["1".toList, "20240115093012123456790".toList] ∧
      compare (dotted ["1".toList, "20240115093012123456789".toList])
          (dotted ["1".toList, "20240115093012123456790".toList]) =
        Ord.compare (endless [1, 20240115093012123456789])
          (endless [1, 20240115093012123456790]) := by
  have hleft : ∀ run ∈ ["1".toList, "20240115093012123456789".toList], isDigits run = true := by
    decide
  have hright : ∀ run ∈ ["1".toList, "20240115093012123456790".toList], isDigits run = true := by
    decide
  have hjudged : ¬Misjudged ["1".toList, "20240115093012123456789".toList]
      ["1".toList, "20240115093012123456790".toList] :=
    not_misjudged_of_comparable (fun run hrun => isRun_of_isDigits (hleft run hrun))
      (fun run hrun => isRun_of_isDigits (hright run hrun)) (by decide)
  have hcompare := (compare_dotted_iff_not_misjudged hleft hright).mpr hjudged
  have hone : valueOfDigits "1".toList = 1 := by decide
  have hearlier : valueOfDigits "20240115093012123456789".toList = 20240115093012123456789 := by
    decide
  have hlater : valueOfDigits "20240115093012123456790".toList = 20240115093012123456790 := by
    decide
  simp only [List.map_cons, List.map_nil, hone, hearlier, hlater] at hcompare
  exact ⟨hjudged, hcompare⟩

/-- The first number that is too long seems older than one. -/
theorem compare_two_pow_64_one :
    compare "18446744073709551616" "1" = .lt ∧
      Ord.compare (endless [2 ^ 64]) (endless [1]) = .gt ∧
      ¬∀ left right : List (List Char), (∀ run ∈ left, isDigits run = true) →
        (∀ run ∈ right, isDigits run = true) →
        compare (dotted left) (dotted right) =
          Ord.compare (endless (left.map valueOfDigits)) (endless (right.map valueOfDigits)) := by
  have hlong : items "18446744073709551616" = [.qualifier "18446744073709551616"] := by
    decide +kernel
  have hone : items "1" = [.number 1] := by decide +kernel
  have hlt : compare "18446744073709551616" "1" = .lt := by
    rw [compare, hlong, hone, compareItems]
    rfl
  have hgt : Ord.compare (endless [2 ^ 64]) (endless [1]) = .gt := by
    rw [compare_endless_cons, compare_gt_iff_gt.mpr (by decide), Ordering.gt_then]
  refine ⟨hlt, hgt, fun hnumbers => ?_⟩
  have h := hnumbers ["18446744073709551616".toList] ["1".toList] (by decide) (by decide)
  have hvalue : valueOfDigits "18446744073709551616".toList = 2 ^ 64 := by decide
  have hvalue' : valueOfDigits "1".toList = 1 := by decide
  simp only [dotted, List.intercalate_singleton, String.ofList_toList, List.map_cons,
    List.map_nil, hvalue, hvalue'] at h
  rw [hlt, hgt] at h
  contradiction

end ReleaseNotes.Version
