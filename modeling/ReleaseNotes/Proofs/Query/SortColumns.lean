import Mathlib.Tactic.SplitIfs
import ReleaseNotes.Proofs.Text.Cutting
import ReleaseNotes.Proofs.Text.Words
import ReleaseNotes.Query.Jql
import ReleaseNotes.Query.Parameters

/-!
Sort texts, in the language and as parameters. Both read the items of the text as the same columns,
with a name and a direction. In the language the columns that have a name take the place of the
order so far. Parameters are added for the columns that are known, the last one first, and an error
is logged for each of the others.
-/

namespace ReleaseNotes.Query

open Text

/-- An item of a sort text as a column. Letter case does not matter. The last word may be a
direction and is then no part of the name. -/
def itemColumn (item : String) : SortColumn :=
  let direction := lowercase (lastWord item)
  let named := if direction = "asc" ∨ direction = "desc" then beforeLastWord item else item
  ⟨trim (lowercase named), direction == "desc"⟩

section Items

variable {item : String}

theorem lowercase_eq_iff {text lower : String} :
    lowercase text = lower ↔ lowerChars text.toList = lower.toList := by
  rw [lowercase, ← String.toList_inj, String.toList_ofList]

theorem trim_lowercase (text : String) :
    trim (lowercase text) = String.ofList (trimChars (lowerChars (trimChars text.toList))) := by
  rw [trimChars_lowerChars_trimChars, trim, lowercase, String.toList_ofList]

/-- The lower-case form of a text is cut at its last blank character. What comes behind it may be a
direction, and if there is no such character the whole may be one. -/
theorem ofText_eq_ite {before word : List Char}
    (h : (splitLast? isBlank (lowerChars (trimChars item.toList))).getD
      ([], lowerChars (trimChars item.toList)) = (before, word)) :
    SortColumn.ofText item =
      if word = "desc".toList then ⟨String.ofList (trimChars before), true⟩
      else if word = "asc".toList then ⟨String.ofList (trimChars before), false⟩
      else ⟨trim (lowercase item), false⟩ := by
  rw [SortColumn.ofText, trim_lowercase]
  cases hsplit : splitLast? isBlank (lowerChars (trimChars item.toList)) with
  | none =>
    rw [hsplit, Option.getD_none] at h
    obtain ⟨rfl, rfl⟩ := Prod.mk.inj h
    dsimp only
    split_ifs <;> rfl
  | some parts =>
    rw [hsplit, Option.getD_some] at h
    subst h
    dsimp only
    split_ifs <;> rfl

/-- The cut is behind the text before the last word, for lower-casing leaves blank characters where
they are. -/
theorem exists_cut_eq (item : String) : ∃ before : List Char,
    (splitLast? isBlank (lowerChars (trimChars item.toList))).getD
        ([], lowerChars (trimChars item.toList)) =
      (before, lowerChars (lastWord item).toList) ∧
    trim (lowercase (beforeLastWord item)) = String.ofList (trimChars before) := by
  cases hsplit : splitLast? isBlank (trimChars item.toList) with
  | none =>
    -- Without a blank character inside, the whole of the item is its last word.
    have hword := splitLast?_eq_none_iff.mp hsplit
    obtain ⟨hlast, hbefore⟩ := toList_lastWord_of_unblank hword
    refine ⟨[], ?_, ?_⟩
    · rw [splitLast?_eq_none (isBlank_of_mem_lowerChars hword), hlast]
      rfl
    · rw [hbefore]
      decide
  | some parts =>
    obtain ⟨blank, hblank, hitem, hword⟩ := exists_of_splitLast? hsplit
    obtain ⟨hlast, hbefore⟩ := toList_lastWord_of_append hblank hword hitem
    refine ⟨lowerChars parts.1, ?_, ?_⟩
    · have hcut : splitLast? isBlank (lowerChars (trimChars item.toList)) =
          some (lowerChars parts.1, lowerChars parts.2) := by
        rw [hitem, lowerChars_append_cons hblank]
        exact splitLast?_append hblank _ (isBlank_of_mem_lowerChars hword)
      rw [hcut, hlast, Option.getD_some]
    · have hend : ∀ c ∈ [blank], isBlank c = true := by simpa using hblank
      rw [trim, lowercase, String.toList_ofList, hbefore, lowerChars_append_of_isBlank hend,
        trimChars_append_of_isBlank hend]

/-- Reading an item letter by letter gives the column that its words stand for. -/
theorem ofText_eq_itemColumn (item : String) : SortColumn.ofText item = itemColumn item := by
  obtain ⟨before, hcut, hbefore⟩ := exists_cut_eq item
  have hdistinct : "desc".toList ≠ "asc".toList := by decide
  rw [ofText_eq_ite hcut, itemColumn]
  simp only [lowercase_eq_iff, beq_eq_decide]
  by_cases hdesc : lowerChars (lastWord item).toList = "desc".toList
  · simp only [hdesc, hdistinct, hbefore, if_true, or_true, decide_true]
  · by_cases hasc : lowerChars (lastWord item).toList = "asc".toList
    · simp only [hasc, hdistinct.symm, hbefore, if_true, if_false, true_or, decide_false]
    · simp only [hdesc, hasc, if_false, or_self, decide_false]

theorem sortColumns_eq (text : String) :
    sortColumns text = (splitAt ',' text).map itemColumn :=
  List.map_congr_left fun item _ => ofText_eq_itemColumn item

example : itemColumn " Fix  Version\tDesc " = ⟨"fix  version", true⟩ := by decide

end Items

section Parameters

def field? (column : SortColumn) : Option String := Parameters.sortFields.lookup column.name

theorem columnParameters_eq (column : SortColumn) :
    Parameters.columnParameters column = (field? column).toList.flatMap fun field =>
      [ ⟨"sorter/field", field⟩,
        ⟨"sorter/order", if column.descending then "DESC" else "ASC"⟩ ] := by
  rw [Parameters.columnParameters, field?]
  cases Parameters.sortFields.lookup column.name <;> rfl

theorem all_isUnknownColumn_iff {columns : List SortColumn} :
    columns.all Parameters.isUnknownColumn = true ↔ ∀ column ∈ columns, field? column = none := by
  rw [List.all_eq_true]
  exact forall₂_congr fun _ _ => Option.isNone_iff_eq_none

end Parameters

/-- The columns of a sort text that have a name, without the spaces in it, become the order of a
query in the language. To the parameters of a query it adds a pair for each column that has a field,
in reverse order. There is an error for each column without a field, and one more if there is no
other column. -/
theorem set_sort_eq (text : String) :
    let columns := (splitAt ',' text).map itemColumn
    let listed := (columns.filter fun column => column.name != "").map fun column =>
      { column with name := String.ofList (column.name.toList.filter fun c => c != ' ') }
    (∀ query : Jql.Query,
      query.set (.sort text) = { query with order := listed } ∧
        (query.set (.sort text)).structured =
          joinWith " AND " (query.clauses.map Jql.Clause.text) ++
            if listed = [] then ""
            else " ORDER BY " ++ joinWith ", " (listed.map fun column =>
              column.name ++ if column.descending then " DESC" else " ASC")) ∧
      (∀ query : Parameters.Query,
        query.set (.sort text) = .ok { query with
          parameters := query.parameters ++ columns.reverse.flatMap fun column =>
            (field? column).toList.flatMap fun field =>
              [ ⟨"sorter/field", field⟩,
                ⟨"sorter/order", if column.descending then "DESC" else "ASC"⟩ ] }) ∧
      Parameters.complaints (.sort text) =
        ((columns.reverse.filter fun column => (field? column).isNone).map fun column =>
            ⟨.error, s!"The configured sort column `{column.name}` isn't correct."⟩) ++
          if ∀ column ∈ columns, field? column = none then
            [⟨.error, s!"None of the configured sort columns `{text}` are correct."⟩]
          else [] := by
  intro columns listed
  have hcolumns : sortColumns text = columns := sortColumns_eq text
  have hlisted : Jql.usableColumns text = listed := by
    rw [Jql.usableColumns, hcolumns]
  have hadded : Parameters.settingParameters (.sort text) =
      columns.reverse.flatMap Parameters.columnParameters := by
    rw [Parameters.settingParameters, hcolumns]
  refine ⟨fun query => ?_, fun query => ?_, ?_⟩
  · have hset : query.set (.sort text) = { query with order := listed } := by
      rw [← hlisted]
      rfl
    refine ⟨hset, ?_⟩
    rw [hset]
    rfl
  · simp only [← columnParameters_eq, ← hadded]
    rfl
  · rw [Parameters.complaints, hcolumns, List.all_reverse]
    simp only [all_isUnknownColumn_iff]
    rfl

/-- Two known columns and one that is not. -/
theorem set_sort_eq_sample :
    let text := "Created, Fix Version DESC, rank"
    (Jql.Query.empty.set (.sort text)).structured =
        " ORDER BY created ASC, fixversion DESC, rank ASC" ∧
      Parameters.Query.empty.set (.sort text) = .ok ⟨"",
        [⟨"sorter/field", "fixVersions"⟩, ⟨"sorter/order", "DESC"⟩,
          ⟨"sorter/field", "created"⟩, ⟨"sorter/order", "ASC"⟩]⟩ ∧
      Parameters.complaints (.sort text) =
        [⟨.error, "The configured sort column `rank` isn't correct."⟩] := by
  intro text
  obtain ⟨hlanguage, hparameters, hcomplaints⟩ := set_sort_eq text
  refine ⟨(hlanguage .empty).2.trans ?_, (hparameters .empty).trans ?_, hcomplaints.trans ?_⟩
  · decide +kernel
  · decide +kernel
  · decide +kernel

end ReleaseNotes.Query
