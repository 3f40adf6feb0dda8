import Mathlib.Data.List.Forall2
import ReleaseNotes.Proofs.Query.SortColumns
import ReleaseNotes.Query.Jql

/-!
How queries are written: a grammar of the values, the clauses and the sort columns of the language,
and of texts in the form for URLs. Each of these has exactly one written form.
-/

namespace ReleaseNotes

open Text

/-- A relation that a function decides for the members of a list relates the list to its image. -/
theorem forall₂_iff_map_eq {α β : Type} {R : α → β → Prop} {f : α → β} {items : List α}
    (h : ∀ item ∈ items, ∀ value, R item value ↔ f item = value) {values : List β} :
    List.Forall₂ R items values ↔ items.map f = values := by
  induction items generalizing values with
  | nil =>
    rw [List.forall₂_nil_left_iff, List.map_nil, eq_comm]
  | cons item items ih =>
    obtain ⟨hitem, hitems⟩ := List.forall_mem_cons.mp h
    rw [List.forall₂_cons_left_iff, List.map_cons]
    simp only [hitem, ih hitems]
    constructor
    · rintro ⟨value, values, rfl, rfl, rfl⟩
      rfl
    · rintro rfl
      exact ⟨_, _, rfl, rfl, rfl⟩

namespace Text

section Encoding

def IsPlainInUrl (c : Char) : Prop :=
  c.isAlphanum = true ∨ c ∈ ['-', '.', '_', '~']

def hexDigits : List Char := "0123456789ABCDEF".toList

/-- A byte of a text in the form for URLs. -/
inductive WritesByte (byte : UInt8) : List Char → Prop
  | plain (h : IsPlainInUrl (Char.ofNat byte.toNat)) : WritesByte byte [Char.ofNat byte.toNat]
  | escaped {high low : Char} (h : ¬IsPlainInUrl (Char.ofNat byte.toNat))
      (hhigh : hexDigits[byte.toNat / 16]? = some high)
      (hlow : hexDigits[byte.toNat % 16]? = some low) : WritesByte byte ['%', high, low]

def IsEncoded (text encoded : String) : Prop :=
  ∃ parts, List.Forall₂ WritesByte text.toUTF8.toList parts ∧ encoded.toList = parts.flatten

theorem isUnreserved_iff {byte : UInt8} :
    isUnreserved byte = true ↔ IsPlainInUrl (Char.ofNat byte.toNat) := by
  simp [isUnreserved, IsPlainInUrl, or_assoc]

theorem getElem?_hexDigits {n : Nat} (h : n < 16) : hexDigits[n]? = some (hexDigit n) := by
  have hall : ∀ n < 16, hexDigits[n]? = some (hexDigit n) := by decide
  exact hall n h

theorem writesByte_iff (byte : UInt8) (chars : List Char) :
    WritesByte byte chars ↔ percentByte byte = chars := by
  have hbyte := byte.toNat_lt
  have hhigh := getElem?_hexDigits (n := byte.toNat / 16) (by omega)
  have hlow := getElem?_hexDigits (n := byte.toNat % 16) (by omega)
  unfold percentByte
  by_cases hplain : isUnreserved byte = true
  · rw [if_pos hplain]
    constructor
    · rintro (_ | ⟨h, _, _⟩)
      · rfl
      · exact absurd (isUnreserved_iff.mp hplain) h
    · rintro rfl
      exact .plain (isUnreserved_iff.mp hplain)
  · rw [if_neg hplain]
    constructor
    · rintro (h | ⟨_, hhigh', hlow'⟩)
      · exact absurd (isUnreserved_iff.mpr h) hplain
      · rw [Option.some.inj (hhigh.symm.trans hhigh'), Option.some.inj (hlow.symm.trans hlow')]
    · rintro rfl
      exact .escaped (fun h => hplain (isUnreserved_iff.mpr h)) hhigh hlow

/-- A text has one encoding, and it is the one that is written. -/
theorem isEncoded_iff {text encoded : String} :
    IsEncoded text encoded ↔ percentEncode text = encoded := by
  have hparts (parts : List (List Char)) :
      List.Forall₂ WritesByte text.toUTF8.toList parts ↔
        text.toUTF8.toList.map percentByte = parts :=
    forall₂_iff_map_eq fun byte _ => writesByte_iff byte
  simp only [IsEncoded, hparts, exists_eq_left', ← List.flatMap_def]
  rw [percentEncode, ← String.toList_inj, String.toList_ofList, eq_comm]

end Encoding

end Text

namespace Jql

variable {text : String}

/-- The language would misread the value: it has a space or a dot in it, or it is a word that the
language reserves. -/
def IsMisread (value : String) : Prop :=
  ' ' ∈ value.toList ∨ '.' ∈ value.toList ∨ lowercase value ∈ reservedWords

instance : DecidablePred IsMisread := fun _ => inferInstanceAs (Decidable (_ ∨ _))

/-- A value stands in quotes if it would be misread without them. -/
inductive WritesValue (value : String) : String → Prop
  | bare (h : ¬IsMisread value) : WritesValue value value
  | inQuotes (h : IsMisread value) : WritesValue value ("\"" ++ value ++ "\"")

def listNames : List (Query.ListField × String) :=
  [ (.fixVersion, "fixVersion"), (.status, "status"), (.resolution, "resolution"),
    (.priority, "priority"), (.issueType, "type"), (.component, "component") ]

inductive WritesClause : Clause → String → Prop
  | project {value text : String} (h : WritesValue value text) :
      WritesClause ⟨.project, .equals value⟩ ("project = " ++ text)
  | fixVersion {value text : String} (h : WritesValue value text) :
      WritesClause ⟨.fixVersion, .equals value⟩ ("fixVersion = " ++ text)
  | listed {field : Query.ListField} {name : String} {values texts : List String}
      (hname : (field, name) ∈ listNames) (htexts : List.Forall₂ WritesValue values texts) :
      WritesClause ⟨.listed field, .oneOf values⟩ (name ++ " in (" ++ ", ".intercalate texts ++ ")")

inductive WritesColumn : Query.SortColumn → String → Prop
  | ascending (name : String) : WritesColumn ⟨name, false⟩ (name ++ " ASC")
  | descending (name : String) : WritesColumn ⟨name, true⟩ (name ++ " DESC")

/-- The part of a query on the order of the results, which is missing if there are no columns. -/
inductive WritesOrder : List Query.SortColumn → String → Prop
  | none : WritesOrder [] ""
  | some {columns : List Query.SortColumn} {texts : List String} (hne : columns ≠ [])
      (htexts : List.Forall₂ WritesColumn columns texts) :
      WritesOrder columns (" ORDER BY " ++ ", ".intercalate texts)

/-- A filter takes the place of clauses and sort columns, unless it is empty. -/
inductive WritesQuery (filter : String) (clauses : List Clause)
    (columns : List Query.SortColumn) : String → Prop
  | filter (h : filter ≠ "") : WritesQuery filter clauses columns filter
  | structured {texts : List String} {order : String} (h : filter = "")
      (htexts : List.Forall₂ WritesClause clauses texts) (horder : WritesOrder columns order) :
      WritesQuery filter clauses columns (" AND ".intercalate texts ++ order)

inductive IsFitting : Clause → Prop
  | project (value : String) : IsFitting ⟨.project, .equals value⟩
  | fixVersion (value : String) : IsFitting ⟨.fixVersion, .equals value⟩
  | listed (field : Query.ListField) (values : List String) :
      IsFitting ⟨.listed field, .oneOf values⟩

/-- The columns of a sort text that have a name, without the spaces in it. -/
def orderOf (text : String) : List Query.SortColumn :=
  (((splitAt ',' text).map Query.itemColumn).filter fun column => column.name != "").map
    fun column => { column with name := String.ofList (column.name.toList.filter (· != ' ')) }

/-- The columns of an order, from the words of the items. -/
theorem usableColumns_eq_orderOf (text : String) : usableColumns text = orderOf text := by
  rw [usableColumns, Query.sortColumns_eq, orderOf]

theorem writesValue_iff (value text : String) : WritesValue value text ↔ quoted value = text := by
  have hquotes : (value.toList.contains ' ' || value.toList.contains '.' || isReserved value) =
      true ↔ IsMisread value := by
    simp [isReserved, IsMisread, or_assoc]
  unfold quoted
  by_cases hmisread : IsMisread value
  · rw [if_pos (hquotes.mpr hmisread)]
    constructor
    · rintro (h | _)
      · exact absurd hmisread h
      · rfl
    · rintro rfl
      exact .inQuotes hmisread
  · rw [if_neg fun h => hmisread (hquotes.mp h)]
    constructor
    · rintro (_ | h)
      · rfl
      · exact absurd h hmisread
    · rintro rfl
      exact .bare hmisread

theorem mem_listNames_iff {field : Query.ListField} {name : String} :
    (field, name) ∈ listNames ↔ (Field.listed field).name = name := by
  cases field <;> simp [listNames, Field.name, eq_comm]

/-- There is one way to write a clause that fits its field, and it is written so. -/
theorem writesClause_iff {clause : Clause} (h : IsFitting clause) (text : String) :
    WritesClause clause text ↔ clause.text = text := by
  cases h with
  | project value =>
    constructor
    · intro h
      cases h with
      | project hvalue =>
        rw [← (writesValue_iff _ _).mp hvalue]
        rfl
    · rintro rfl
      exact .project ((writesValue_iff _ _).mpr rfl)
  | fixVersion value =>
    constructor
    · intro h
      cases h with
      | fixVersion hvalue =>
        rw [← (writesValue_iff _ _).mp hvalue]
        rfl
    · rintro rfl
      exact .fixVersion ((writesValue_iff _ _).mpr rfl)
  | listed field values =>
    have htexts {texts : List String} :
        List.Forall₂ WritesValue values texts ↔ values.map quoted = texts :=
      forall₂_iff_map_eq fun value _ => writesValue_iff value
    constructor
    · intro h
      cases h with
      | listed hname hvalues =>
        rw [← mem_listNames_iff.mp hname, ← htexts.mp hvalues]
        simp only [Clause.text, Condition.text, joinWith, String.append_assoc]
    · rintro rfl
      have hname : (field, (Field.listed field).name) ∈ listNames := mem_listNames_iff.mpr rfl
      have hwritten := WritesClause.listed hname (htexts.mpr rfl)
      simpa only [Clause.text, Condition.text, joinWith, String.append_assoc] using hwritten

theorem writesColumn_iff (column : Query.SortColumn) (text : String) :
    WritesColumn column text ↔ columnText column = text := by
  constructor
  · intro h
    cases h with
    | ascending name => rfl
    | descending name => rfl
  · rintro rfl
    obtain ⟨name, descending⟩ := column
    cases descending with
    | false => exact .ascending name
    | true => exact .descending name

theorem writesOrder_iff {columns : List Query.SortColumn} : WritesOrder columns text ↔
    (if columns = [] then ""
      else " ORDER BY " ++ joinWith ", " (columns.map columnText)) = text := by
  have htexts {texts : List String} :
      List.Forall₂ WritesColumn columns texts ↔ columns.map columnText = texts :=
    forall₂_iff_map_eq fun column _ => writesColumn_iff column
  by_cases hnone : columns = []
  · subst hnone
    rw [if_pos rfl]
    constructor
    · rintro (_ | ⟨hne, _⟩)
      · rfl
      · contradiction
    · rintro rfl
      exact .none
  · rw [if_neg hnone]
    constructor
    · rintro (_ | ⟨_, hcolumns⟩)
      · contradiction
      · rw [htexts.mp hcolumns]
        rfl
    · rintro rfl
      exact .some hnone (htexts.mpr rfl)

/-- A query has exactly one written form. -/
theorem writesQuery_iff {query : Query} (h : ∀ clause ∈ query.clauses, IsFitting clause) :
    WritesQuery query.filter query.clauses query.order text ↔ query.plain = text := by
  have htexts {texts : List String} :
      List.Forall₂ WritesClause query.clauses texts ↔ query.clauses.map Clause.text = texts :=
    forall₂_iff_map_eq fun clause hclause => writesClause_iff (h clause hclause)
  unfold Query.plain
  by_cases hempty : query.filter = ""
  · rw [if_pos hempty]
    constructor
    · rintro (hfilter | ⟨_, hclauses, horder⟩)
      · contradiction
      · rw [← htexts.mp hclauses, ← writesOrder_iff.mp horder]
        rfl
    · rintro rfl
      exact .structured hempty (htexts.mpr rfl) (writesOrder_iff.mpr rfl)
  · rw [if_neg hempty]
    constructor
    · rintro (_ | ⟨hfilter, _, _⟩)
      · rfl
      · contradiction
    · rintro rfl
      exact .filter hempty

end Jql

end ReleaseNotes
