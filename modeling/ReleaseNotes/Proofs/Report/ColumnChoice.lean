import Mathlib.Data.List.Forall2
import ReleaseNotes.Proofs.Journal
import ReleaseNotes.Proofs.Text.Trimming
import ReleaseNotes.Report.Column

/-!
The choice of columns. No two columns have the same label in any spelling, so each item of a list
names one column at most. The items that name a column of the tracker make the columns of the
report, one by one, and every other item is warned about.
-/

namespace ReleaseNotes

section Items

variable {α β : Type} {R : α → β → Prop} {read : α → Option β} {chosen : α → Bool} {items : List α}

/-- The items of a list that can be read belong to what is read, one by one. -/
theorem forall₂_filter_filterMap (hchosen : ∀ item ∈ items, chosen item = (read item).isSome)
    (hread : ∀ item ∈ items, ∀ value, read item = some value → R item value) :
    List.Forall₂ R (items.filter chosen) (items.filterMap read) := by
  induction items with
  | nil => exact List.Forall₂.nil
  | cons item items ih =>
    obtain ⟨hitem, hitems⟩ := List.forall_mem_cons.mp hchosen
    obtain ⟨hfirst, hrest⟩ := List.forall_mem_cons.mp hread
    cases hvalue : read item with
    | none =>
      rw [hvalue] at hitem
      rw [List.filter_cons_of_neg (by simp [hitem]), List.filterMap_cons_none hvalue]
      exact ih hitems hrest
    | some value =>
      rw [hvalue] at hitem
      rw [List.filter_cons_of_pos (by simp [hitem]), List.filterMap_cons_some hvalue]
      exact List.Forall₂.cons (hfirst value hvalue) (ih hitems hrest)

end Items

namespace Column

open Text Journaled

variable {tracker : Origin} {names item : String} {column : Column}

/-- An item is the label of a column, with any of its ASCII letters in the other case. -/
def Names (item : String) (column : Column) : Prop :=
  asciiLowercase item = asciiLowercase column.label

instance (item : String) (column : Column) : Decidable (Names item column) :=
  inferInstanceAs (Decidable (_ = _))

def itemsOf (names : String) : List String :=
  (splitAt ',' names).map trim

def isUsable (tracker : Origin) (item : String) : Bool :=
  (supported tracker).any fun column => decide (Names item column)

/-- What is logged about an item that is no column of the report. -/
structure IsComplaint (item : String) (entry : Entry) : Prop where
  level_eq : entry.level = .warning
  text_of_known : (∃ column, Names item column) →
    entry.text = s!"The tracker doesn't support the `{item}` column."
  text_of_unknown : (¬∃ column, Names item column) →
    entry.text = s!"Unknown column in the issues report: `{item}`"

/-- What a choice of columns comes to. -/
structure IsChoice (tracker : Origin) (names : String) (run : Journaled (List Column)) : Prop where
  /-- There is no report if no item names a column of the tracker. -/
  fails_iff : (∃ failure, run.outcome = .error failure) ↔
    ∀ item ∈ itemsOf names, ∀ column ∈ supported tracker, ¬Names item column
  failure_eq : ∀ failure, run.outcome = .error failure → failure = .ofCause (.noUsableColumns names)
  /-- The columns are those that the items name, one by one and in their order. -/
  columns_eq : ∀ columns, run.outcome = .ok columns →
    List.Forall₂ (fun item column => Names item column ∧ column ∈ supported tracker)
      ((itemsOf names).filter (isUsable tracker)) columns
  /-- All other items are warned about, one by one and in their order, unless they are blank. -/
  entries_eq : List.Forall₂ IsComplaint
    ((itemsOf names).filter fun item => item != "" && !isUsable tracker item) run.entries
  /-- Nothing else happens. -/
  events_eq : run.events = run.entries.map .logged

section Naming

theorem mem_all (column : Column) : column ∈ all := by
  cases column <;> decide

/-- The labels of two columns differ in more than the case of letters. -/
theorem eq_of_names {other : Column} (hcolumn : Names item column) (hother : Names item other) :
    column = other := by
  have hlabels : ∀ column ∈ all, ∀ other ∈ all,
      asciiLowercase column.label = asciiLowercase other.label → column = other := by
    decide +kernel
  exact hlabels column (mem_all column) other (mem_all other) (hcolumn.symm.trans hother)

/-- A column is known by its label, with blanks around it and in any letter case. -/
theorem ofName?_eq_some_iff {name : String} :
    ofName? name = some column ↔ Names (trim name) column := by
  constructor
  · intro h
    have hfound := List.find?_some h
    exact (beq_iff_eq.mp hfound).symm
  · intro h
    cases hfound : ofName? name with
    | none =>
      have hnone := List.find?_eq_none.mp hfound column (mem_all column)
      exact absurd (beq_iff_eq.mpr h.symm) hnone
    | some other =>
      have hother := List.find?_some hfound
      exact congrArg some (eq_of_names (beq_iff_eq.mp hother).symm h)

theorem supported?_eq_some_iff {name : String} :
    supported? tracker name = some column ↔
      Names (trim name) column ∧ column ∈ supported tracker := by
  rw [supported?, Option.filter_eq_some_iff, ofName?_eq_some_iff, List.contains_iff_mem]

theorem isUsable_eq (hitem : trim item = item) :
    isUsable tracker item = (supported? tracker item).isSome := by
  rw [Bool.eq_iff_iff, Option.isSome_iff_exists, isUsable, List.any_eq_true]
  simp only [supported?_eq_some_iff, hitem, decide_eq_true_eq]
  exact exists_congr fun column => and_comm

/-- A blank item is no column. -/
theorem isUsable_empty (tracker : Origin) : isUsable tracker "" = false := by
  cases tracker <;> decide +kernel

end Naming

section Choosing

theorem commaList_eq_filter (names : String) :
    commaList names = (itemsOf names).filter fun item => item != "" := rfl

theorem trim_of_mem_itemsOf (h : item ∈ itemsOf names) : trim item = item := by
  obtain ⟨part, _, rfl⟩ := List.mem_map.mp h
  exact trim_trim part

theorem filter_isUsable (tracker : Origin) (names : String) :
    (commaList names).filter (isUsable tracker) = (itemsOf names).filter (isUsable tracker) := by
  rw [commaList_eq_filter, List.filter_filter]
  refine List.filter_congr fun item _ => ?_
  by_cases hempty : item = ""
  · rw [hempty, isUsable_empty, Bool.false_and]
  · rw [bne_iff_ne.mpr hempty, Bool.and_true]

/-- The columns of a report and the items that name them. -/
theorem forall₂_columns (tracker : Origin) (names : String) :
    List.Forall₂ (fun item column => Names item column ∧ column ∈ supported tracker)
      ((itemsOf names).filter (isUsable tracker))
      ((commaList names).filterMap (supported? tracker)) := by
  have htrimmed : ∀ item ∈ commaList names, trim item = item := by
    intro item hitem
    exact trim_of_mem_itemsOf (List.mem_of_mem_filter hitem)
  rw [← filter_isUsable]
  refine forall₂_filter_filterMap (fun item hitem => isUsable_eq (htrimmed item hitem)) ?_
  intro item hitem column hcolumn
  rw [supported?_eq_some_iff, htrimmed item hitem] at hcolumn
  exact hcolumn

def complaint (item : String) : Entry where
  level := .warning
  text :=
    match ofName? item with
    | some _ => s!"The tracker doesn't support the `{item}` column."
    | none => s!"Unknown column in the issues report: `{item}`"

/-- There is a warning about an item exactly if it is no usable column. -/
theorem complaints_eq (hitem : trim item = item) :
    complaints tracker item = if isUsable tracker item then [] else [complaint item] := by
  rw [isUsable_eq hitem]
  unfold complaints supported? complaint
  cases ofName? item with
  | none => rfl
  | some column =>
    cases hsupported : (supported tracker).contains column with
    | false => simp only [Option.filter_some, hsupported, Option.isSome_none, Bool.false_eq_true,
        if_false]
    | true => simp only [Option.filter_some, hsupported, Option.isSome_some, if_true]

theorem isComplaint_complaint (hitem : trim item = item) : IsComplaint item (complaint item) := by
  have hknown : (∃ column, Names item column) ↔ ∃ column, ofName? item = some column := by
    simp only [ofName?_eq_some_iff, hitem]
  refine ⟨rfl, ?_, ?_⟩
  · rw [hknown]
    rintro ⟨column, hcolumn⟩
    simp only [complaint, hcolumn]
  · rw [hknown, ← Option.isSome_iff_exists, Bool.not_eq_true, Option.isSome_eq_false_iff,
      Option.isNone_iff_eq_none]
    intro hnone
    simp only [complaint, hnone]

/-- The warnings and the items that they are about. -/
theorem forall₂_complaints (tracker : Origin) (names : String) :
    List.Forall₂ IsComplaint
      ((itemsOf names).filter fun item => item != "" && !isUsable tracker item)
      ((commaList names).flatMap (complaints tracker)) := by
  have htrimmed : ∀ item ∈ commaList names, trim item = item := by
    intro item hitem
    exact trim_of_mem_itemsOf (List.mem_of_mem_filter hitem)
  have hitems : ((itemsOf names).filter fun item => item != "" && !isUsable tracker item) =
      (commaList names).filter fun item => !isUsable tracker item := by
    rw [commaList_eq_filter, List.filter_filter]
    exact List.filter_congr fun item _ => Bool.and_comm _ _
  have hentries : (commaList names).flatMap (complaints tracker) =
      (commaList names).filterMap fun item =>
        if isUsable tracker item then none else some (complaint item) := by
    rw [List.filterMap_eq_flatMap_toList]
    refine List.flatMap_congr fun item hitem => ?_
    rw [complaints_eq (htrimmed item hitem), apply_ite Option.toList]
    rfl
  rw [hitems, hentries]
  refine forall₂_filter_filterMap (fun item _ => ?_) fun item hitem entry hentry => ?_
  · cases isUsable tracker item with
    | false => rfl
    | true => rfl
  · obtain ⟨_, hentry⟩ := Option.ite_none_left_eq_some.mp hentry
    rw [← Option.some.inj hentry]
    exact isComplaint_complaint (htrimmed item hitem)

theorem outcome_select (tracker : Origin) (names : String) :
    (select tracker names).outcome =
      if (commaList names).filterMap (supported? tracker) = [] then
        .error (.ofCause (.noUsableColumns names))
      else .ok ((commaList names).filterMap (supported? tracker)) := by
  rw [select, outcome_logAll_bind]
  cases (commaList names).filterMap (supported? tracker) with
  | nil => rfl
  | cons column columns => rfl

theorem events_select (tracker : Origin) (names : String) :
    (select tracker names).events =
      ((commaList names).flatMap (complaints tracker)).map .logged := by
  rw [select, bind_of_ok rfl]
  cases (commaList names).filterMap (supported? tracker) with
  | nil => exact List.append_nil _
  | cons column columns => exact List.append_nil _

theorem entries_select (tracker : Origin) (names : String) :
    (select tracker names).entries = (commaList names).flatMap (complaints tracker) := by
  rw [entries, events_select, List.filterMap_map]
  exact List.filterMap_some

end Choosing

/-- There is no column to show exactly if no item is usable. -/
theorem filterMap_eq_nil_iff (tracker : Origin) (names : String) :
    (commaList names).filterMap (supported? tracker) = [] ↔
      ∀ item ∈ itemsOf names, ∀ column ∈ supported tracker, ¬Names item column := by
  have hlength := (forall₂_columns tracker names).length_eq
  rw [← List.length_eq_zero_iff, ← hlength, List.length_eq_zero_iff, List.filter_eq_nil_iff]
  refine forall₂_congr fun item _ => ?_
  rw [isUsable, List.any_eq_true, not_exists]
  refine forall_congr' fun column => ?_
  rw [not_and, decide_eq_true_eq]

theorem isChoice_select (tracker : Origin) (names : String) :
    IsChoice tracker names (select tracker names) := by
  have hcolumns := forall₂_columns tracker names
  have houtcome := outcome_select tracker names
  refine ⟨?_, ?_, ?_, ?_, ?_⟩
  · rw [houtcome, ← filterMap_eq_nil_iff]
    by_cases hnone : (commaList names).filterMap (supported? tracker) = []
    · rw [if_pos hnone]
      exact ⟨fun _ => hnone, fun _ => ⟨_, rfl⟩⟩
    · rw [if_neg hnone]
      exact ⟨fun ⟨failure, hfailure⟩ => by contradiction, fun h => absurd h hnone⟩
  · intro failure hfailure
    rw [houtcome] at hfailure
    split at hfailure
    · exact (Except.error.inj hfailure).symm
    · contradiction
  · intro columns hchosen
    rw [houtcome] at hchosen
    split at hchosen
    · contradiction
    · rwa [← Except.ok.inj hchosen]
  · rw [entries_select]
    exact forall₂_complaints tracker names
  · rw [entries_select, events_select]

end Column

end ReleaseNotes
