import Mathlib.Data.Sum.Order
import ReleaseNotes.Proofs.Traversal
import ReleaseNotes.Proofs.Version.Endless
import ReleaseNotes.Proofs.Version.Items

/-!
Ordinary versions: numbers, and words for the stages before a release. What such a version spells
is a list of marks, which goes on with the number zero without end. The first mark that differs
decides between two versions, so they are ordered totally, and they are equal exactly if they spell
the same marks up to zeros at the end.
-/

namespace ReleaseNotes.Version

open Text

inductive Stage where
  | alpha
  | beta
  | milestone
  | candidate
  | snapshot
deriving DecidableEq, Repr

def Stage.place : Stage → ℕ
  | .alpha => 0
  | .beta => 1
  | .milestone => 2
  | .candidate => 3
  | .snapshot => 4

def Stage.words : Stage → List String
  | .alpha => ["alpha", "a"]
  | .beta => ["beta", "b"]
  | .milestone => ["milestone", "m"]
  | .candidate => ["rc", "cr"]
  | .snapshot => ["snapshot"]

inductive Mark where
  | stage (stage : Stage)
  | number (value : ℕ)
deriving DecidableEq, Repr

def Mark.rank : Mark → ℕ ⊕ₗ ℕ
  | .stage s => Sum.inlₗ s.place
  | .number value => Sum.inrₗ value

theorem Stage.place_injective : Function.Injective Stage.place := by
  intro first second h
  cases first <;> cases second <;> first | rfl | contradiction

theorem Mark.rank_injective : Function.Injective Mark.rank := by
  intro first second h
  cases first with
  | stage s =>
    cases second with
    | stage other =>
      have hplace : s.place = other.place := Sum.inl_injective (toLex.injective h)
      exact congrArg Mark.stage (Stage.place_injective hplace)
    | number value => exact absurd (toLex.injective h) Sum.inl_ne_inr
  | number value =>
    cases second with
    | stage s => exact absurd (toLex.injective h) Sum.inr_ne_inl
    | number other => exact congrArg Mark.number (Sum.inr_injective (toLex.injective h))

instance : LinearOrder Mark := LinearOrder.lift' Mark.rank Mark.rank_injective

instance : Zero Mark := ⟨.number 0⟩

theorem compare_stage (first second : Stage) :
    Ord.compare (Mark.stage first) (Mark.stage second) = Ord.compare first.place second.place := by
  have h := Sum.Lex.inl_strictMono (α := ℕ) (β := ℕ) |>.cmp_map_eq first.place second.place
  rw [cmp_eq_compare, cmp_eq_compare] at h
  exact h

theorem compare_number (first second : ℕ) :
    Ord.compare (Mark.number first) (Mark.number second) = Ord.compare first second := by
  have h := Sum.Lex.inr_strictMono (α := ℕ) (β := ℕ) |>.cmp_map_eq first second
  rw [cmp_eq_compare, cmp_eq_compare] at h
  exact h

theorem compare_stage_number (stage : Stage) (value : ℕ) :
    Ord.compare (Mark.stage stage) (Mark.number value) = .lt :=
  compare_lt_iff_lt.mpr (Sum.Lex.inl_lt_inr stage.place value)

theorem compare_number_stage (value : ℕ) (stage : Stage) :
    Ord.compare (Mark.number value) (Mark.stage stage) = .gt :=
  compare_gt_iff_gt.mpr (Sum.Lex.inl_lt_inr stage.place value)

/-- What a text spells from its start: numbers below two to the power of 64 and stages in any
letter case, each of them in a run that goes on no further. -/
inductive Spelling : List Char → List Mark → Prop
  | nil : Spelling [] []
  | separator {c : Char} {rest : List Char} {marks : List Mark} (hc : isSeparator c = true)
      (hrest : Spelling rest marks) : Spelling (c :: rest) marks
  | number {run rest : List Char} {marks : List Mark} (hrun : IsRun true run)
      (hlt : valueOfDigits run < 2 ^ 64) (hstops : Stops true rest)
      (hrest : Spelling rest marks) :
      Spelling (run ++ rest) (.number (valueOfDigits run) :: marks)
  | stage {run rest : List Char} {marks : List Mark} {stage : Stage} (hrun : IsRun false run)
      (hword : lowercase (String.ofList run) ∈ stage.words) (hstops : Stops false rest)
      (hrest : Spelling rest marks) : Spelling (run ++ rest) (.stage stage :: marks)

def Spells (version : String) (marks : List Mark) : Prop :=
  Spelling (trimChars version.toList) marks

inductive Item.Denotes : Item → Mark → Prop
  | number (value : ℕ) : Item.Denotes (.number value) (.number value)
  | stage {word : String} {stage : Stage} (h : word ∈ stage.words) :
      Item.Denotes (.qualifier word) (.stage stage)

theorem Stage.words_have_no_digits (s : Stage) :
    ∀ word ∈ s.words, word.toList.all (fun c => !c.isDigit) = true := by
  cases s <;> decide

/-- The items of a spelled version are its marks, one by one. -/
theorem Spelling.denotes {chars : List Char} {marks : List Mark} (h : Spelling chars marks) :
    List.Forall₂ Item.Denotes (itemsOf chars) marks := by
  induction h with
  | nil => exact List.Forall₂.nil
  | separator hc hrest ih =>
    rw [itemsOf_separator_cons hc]
    exact ih
  | number hrun hlt hstops hrest ih =>
    rw [itemsOf_run_append hrun hstops, ofRun_of_lt hrun hlt]
    exact List.Forall₂.cons (.number _) ih
  | stage hrun hword hstops hrest ih =>
    rw [itemsOf_run_append hrun hstops, ofRun_of_word hrun]
    exact List.Forall₂.cons (.stage hword) ih

/-- A text spells the marks for its items. -/
theorem spelling_iff {chars : List Char} {marks : List Mark} :
    Spelling chars marks ↔ List.Forall₂ Item.Denotes (itemsOf chars) marks := by
  refine ⟨Spelling.denotes, ?_⟩
  intro h
  induction chars using runs_induction generalizing marks with
  | nil =>
    obtain rfl := List.forall₂_nil_left_iff.mp h
    exact .nil
  | separator c rest hc ih =>
    rw [itemsOf_separator_cons hc] at h
    exact .separator hc (ih h)
  | run digits run rest hrun hstops ih =>
    rw [itemsOf_run_append hrun hstops] at h
    obtain ⟨mark, others, hmark, hothers, rfl⟩ := List.forall₂_cons_left_iff.mp h
    cases digits with
    | false =>
      rw [ofRun_of_word hrun] at hmark
      obtain _ | hword := hmark
      exact .stage hrun hword hstops (ih hothers)
    | true =>
      rcases Nat.lt_or_ge (valueOfDigits run) UInt64.size with hlt | hle
      · rw [ofRun_of_lt hrun hlt] at hmark
        obtain _ | _ := hmark
        exact .number hrun hlt hstops (ih hothers)
      · -- A number that is too long is a word, but no word for a stage has digits.
        rw [ofRun_of_le hrun hle] at hmark
        obtain _ | hword := hmark
        exact absurd rfl (ofList_ne_of_isRun hrun (Stage.words_have_no_digits _ _ hword))

theorem spells_iff {version : String} {marks : List Mark} :
    Spells version marks ↔ List.Forall₂ Item.Denotes (items version) marks :=
  spelling_iff

theorem qualifierRank_of_mem_words {stage : Stage} {word : String} (h : word ∈ stage.words) :
    qualifierRank word = (stage.place, "") := by
  cases stage <;> simp only [Stage.words, List.mem_cons, List.not_mem_nil, or_false] at h
  case snapshot => subst h; rfl
  all_goals rcases h with rfl | rfl <;> rfl

/-- Items are compared as the marks for them. -/
theorem compareItem_eq {left right : Item} {first second : Mark} (hleft : left.Denotes first)
    (hright : right.Denotes second) : compareItem left right = Ord.compare first second := by
  cases hleft with
  | number l =>
    cases hright with
    | number r => exact (compare_number l r).symm
    | stage h => exact (compare_number_stage l _).symm
  | stage h =>
    cases hright with
    | number r => exact (compare_stage_number _ r).symm
    | stage h' =>
      rw [compareItem, compareQualifiers, qualifierRank_of_mem_words h,
        qualifierRank_of_mem_words h', compare_stage, Std.ReflOrd.compare_self (α := String),
        Ordering.then_eq]

/-- Either a missing item stands for the number zero, or both numbers and plain releases come after
the stage beside it. -/
theorem compareItem_absentBeside {item : Item} {mark : Mark} (h : item.Denotes mark) :
    compareItem item item.absentBeside = Ord.compare mark 0 := by
  cases h with
  | number value => exact (compare_number value 0).symm
  | @stage word stage h =>
    have hplain : qualifierRank "" = (5, "") := rfl
    have hlt : stage.place < 5 := by cases stage <;> decide
    rw [Item.absentBeside, compareItem, compareQualifiers, qualifierRank_of_mem_words h, hplain,
      compare_lt_iff_lt.mpr hlt, Ordering.lt_then]
    exact (compare_stage_number stage 0).symm

/-- Spelled versions are compared as their marks, with zeros behind the shorter one. -/
theorem compare_of_spells {left right : String} {first second : List Mark}
    (hleft : Spells left first) (hright : Spells right second) :
    compare left right = Ord.compare (endless first) (endless second) :=
  compareItems_of_measures compareItem_absentBeside compareItem_eq (spells_iff.mp hleft)
    (spells_iff.mp hright)

theorem isPreorderOn_of_spells : IsPreorderOn {version | ∃ marks, Spells version marks} := by
  refine ⟨fun a _ => compare_self a, fun a _ b _ => compare_swap a b, ?_⟩
  rintro a ⟨first, ha⟩ b ⟨second, hb⟩ c ⟨third, hc⟩ hab hbc
  rw [compare_of_spells ha hb, Ne, compare_gt_iff_gt, not_lt] at hab
  rw [compare_of_spells hb hc, Ne, compare_gt_iff_gt, not_lt] at hbc
  rw [compare_of_spells ha hc, Ne, compare_gt_iff_gt, not_lt]
  exact le_trans hab hbc

/-- A version spells some marks exactly if its items are numbers and stages. Two such versions are
compared by the endless sequences of their marks, so they are ordered totally, and they are equal
exactly if their marks are the same up to zeros at the end. -/
theorem compare_eq_compare_endless :
    (∀ version, (∃ marks, Spells version marks) ↔
      ∀ item ∈ items version, ∃ mark, item.Denotes mark) ∧
    (∀ left right first second, Spells left first → Spells right second →
      compare left right = Ord.compare (endless first) (endless second) ∧
      (compare left right = .eq ↔ withoutZeros first = withoutZeros second)) ∧
    IsPreorderOn {version | ∃ marks, Spells version marks} := by
  refine ⟨?_, ?_, isPreorderOn_of_spells⟩
  · intro version
    simp only [spells_iff]
    exact exists_forall₂_iff
  · intro left right first second hleft hright
    have heq := compare_of_spells hleft hright
    rw [heq, compare_eq_iff_eq, endless_eq_iff]
    exact ⟨rfl, Iff.rfl⟩

/-- Two ways to write the first release candidate. -/
theorem compare_first_candidates :
    Spells "1.0-RC1" [.number 1, .number 0, .stage .candidate, .number 1] ∧
      Spells "1.0.cr-01.0" [.number 1, .number 0, .stage .candidate, .number 1, .number 0] ∧
      compare "1.0-RC1" "1.0.cr-01.0" = .eq := by
  have hshort : items "1.0-RC1" = [.number 1, .number 0, .qualifier "rc", .number 1] := by
    decide +kernel
  have hlong : items "1.0.cr-01.0" =
      [.number 1, .number 0, .qualifier "cr", .number 1, .number 0] := by decide +kernel
  have hleft : Spells "1.0-RC1" [.number 1, .number 0, .stage .candidate, .number 1] := by
    rw [spells_iff, hshort]
    exact .cons (.number 1) (.cons (.number 0)
      (.cons (.stage (by decide)) (.cons (.number 1) .nil)))
  have hright : Spells "1.0.cr-01.0"
      [.number 1, .number 0, .stage .candidate, .number 1, .number 0] := by
    rw [spells_iff, hlong]
    exact .cons (.number 1) (.cons (.number 0) (.cons (.stage (by decide))
      (.cons (.number 1) (.cons (.number 0) .nil))))
  exact ⟨hleft, hright,
    (compare_eq_compare_endless.2.1 _ _ _ _ hleft hright).2.mpr (by decide)⟩

end ReleaseNotes.Version
