import ReleaseNotes.Proofs.Text.Cutting
import ReleaseNotes.Proofs.Traversal
import ReleaseNotes.Query.Jql

/-!
Reading a query in its text. The text is cut at the words and signs of the language wherever they
stand outside quotes. A value that could be taken for a part of the language stands in quotes, so
the clauses and the sort columns can be read if no value has a quote of its own, no list of values
is empty and no column has a comma in its name.
-/

namespace ReleaseNotes.Jql

open Text

section Reader

def isQuote (c : Char) : Bool := c == '"'

def unquote (chars : List Char) : String :=
  match chars with
  | '"' :: rest => String.ofList rest.dropLast
  | _ => String.ofList chars

def readClause? (chars : List Char) : Option (String × Condition) :=
  match cut? isQuote " = ".toList chars with
  | some (name, value) => some (String.ofList name, .equals (unquote value))
  | none =>
    match cut? isQuote " in (".toList chars with
    | some (name, values) =>
      if values.getLast? = some ')' then
        some (String.ofList name,
          .oneOf ((pieces isQuote ", ".toList values.dropLast).map unquote))
      else none
    | none => none

def readClauses? (chars : List Char) : Option (List (String × Condition)) :=
  if chars = [] then some [] else (pieces isQuote " AND ".toList chars).mapM readClause?

def readColumn? (chars : List Char) : Option Query.SortColumn :=
  match splitLast? (· == ' ') chars with
  | some (name, direction) =>
    if direction = "DESC".toList then some ⟨String.ofList name, true⟩
    else if direction = "ASC".toList then some ⟨String.ofList name, false⟩
    else none
  | none => none

/-- Reads the clauses and the sort columns. There are no quotes among sort columns. -/
def read? (text : String) : Option (List (String × Condition) × List Query.SortColumn) :=
  match cut? isQuote " ORDER BY ".toList text.toList with
  | some (clauses, columns) => do
    return (← readClauses? clauses,
      ← (pieces (fun _ => false) ", ".toList columns).mapM readColumn?)
  | none => do return (← readClauses? text.toList, [])

end Reader

section Values

variable {value : String} {word others separator rest : List Char}

/-- A value stands in quotes, or else it is a single word that the language does not reserve. -/
theorem quoted_cases (value : String) :
    (quoted value).toList = '"' :: (value.toList ++ ['"']) ∨
      (quoted value).toList = value.toList ∧ ' ' ∉ value.toList ∧ isReserved value = false := by
  unfold quoted
  split
  · left
    simp
  · rename_i h
    right
    simp only [Bool.or_eq_true, not_or, Bool.not_eq_true, List.contains_eq_mem,
      decide_eq_false_iff_not] at h
    exact ⟨rfl, h.1.1, h.2⟩

theorem isQuote_eq_false {chars : List Char} (h : '"' ∉ chars) : ∀ c ∈ chars, isQuote c = false :=
  beq_eq_false_of_notMem h

theorem closed_quoted (hvalue : '"' ∉ value.toList) :
    openAfter isQuote false (quoted value).toList = false := by
  rcases quoted_cases value with hquoted | ⟨hplain, _⟩
  · rw [hquoted]
    exact closed_marked rfl (isQuote_eq_false hvalue)
  · rw [hplain]
    exact openAfter_of_unmarked false (isQuote_eq_false hvalue)

/-- No separator is found in a value: if it has a space in it, it stands in quotes. -/
theorem uncut_quoted (hvalue : '"' ∉ value.toList) (hspace : separator.head? = some ' ') :
    Uncut isQuote separator rest false (quoted value).toList := by
  rcases quoted_cases value with hquoted | ⟨hplain, hword, _⟩
  · rw [hquoted]
    exact uncut_marked rfl hspace (by decide) (isQuote_eq_false hvalue)
  · rw [hplain]
    exact uncut_of_notMem hspace hword

theorem isPiece_quoted (hvalue : '"' ∉ value.toList) :
    IsPiece isQuote ", ".toList (quoted value).toList := by
  refine ⟨closed_quoted hvalue, fun rest hrest => ?_⟩
  rcases quoted_cases value with hquoted | ⟨hplain, hword, _⟩
  · rw [hquoted]
    exact uncut_marked rfl rfl (by decide) (isQuote_eq_false hvalue)
  · have hhead : rest.head? ≠ some ' ' := by
      rcases hrest with rfl | ⟨tail, rfl⟩
      · exact nofun
      · exact (by decide : some ',' ≠ some ' ')
    rw [hplain]
    exact uncut_of_second_notMem hhead hword

/-- Reading a value gives it back, whether it stands in quotes or not. -/
theorem unquote_quoted (hvalue : '"' ∉ value.toList) : unquote (quoted value).toList = value := by
  rcases quoted_cases value with hquoted | ⟨hplain, _⟩
  · rw [hquoted, unquote, List.dropLast_concat, String.ofList_toList]
  · rw [hplain, unquote]
    · exact String.ofList_toList
    · intro rest hstart
      rw [hstart] at hvalue
      exact hvalue List.mem_cons_self

/-- The first word of a text that begins with a value is no word of the language. -/
theorem firstWord_quoted_ne (hreserved : isReserved (String.ofList word) = true)
    (hquote : '"' ∉ word) (hrest : rest = [] ∨ rest.head? = some ' ') :
    firstWord ((quoted value).toList ++ rest) ≠ word := by
  rintro rfl
  rcases quoted_cases value with hquoted | ⟨hplain, hword, hfree⟩
  · rw [hquoted] at hquote
    exact hquote List.mem_cons_self
  · rw [hplain, firstWord_append_of_space hword hrest, String.ofList_toList, hfree] at hreserved
    contradiction

/-- The first word of a text that begins with a value and a sign has the sign or a quote in it. -/
theorem firstWord_quoted_cons_ne {c : Char} (hspace : c ≠ ' ') (hsign : c ∉ word)
    (hquote : '"' ∉ word) : firstWord ((quoted value).toList ++ c :: rest) ≠ word := by
  rintro rfl
  rcases quoted_cases value with hquoted | ⟨hplain, hword, _⟩
  · rw [hquoted] at hquote
    exact hquote List.mem_cons_self
  · have hfirst : firstWord (c :: rest) = c :: firstWord rest :=
      List.takeWhile_cons_of_pos (by simpa using hspace)
    rw [hplain, firstWord_append hword, hfirst] at hsign
    exact hsign (List.mem_append_right _ List.mem_cons_self)

end Values

section Clauses

/-- A clause as settings make it: a single value for a project or a version, or some values for
another field, without quotes in them. -/
inductive IsSound : Clause → Prop
  | equals {field : Field} {value : String} (hfield : field = .project ∨ field = .fixVersion)
      (hvalue : '"' ∉ value.toList) : IsSound ⟨field, .equals value⟩
  | oneOf {field : Query.ListField} {values : List String} (hne : values ≠ [])
      (hvalues : ∀ value ∈ values, '"' ∉ value.toList) : IsSound ⟨.listed field, .oneOf values⟩

/-- A word that does not stand by itself in a clause with a list of values. The words that separate
begin after a space, so only the words after a space outside quotes can be taken for one. -/
structure IsForeignToLists (word : List Char) : Prop where
  no_space : ' ' ∉ word
  no_quote : '"' ∉ word
  no_comma : ',' ∉ word
  no_opening : '(' ∉ word
  no_closing : ')' ∉ word
  ne_in : word ≠ "in".toList

structure IsForeign (word : List Char) : Prop extends IsForeignToLists word where
  reserved : isReserved (String.ofList word) = true

theorem isForeignToLists_equals : IsForeignToLists "=".toList := by
  constructor <;> decide

theorem isForeign_and : IsForeign "AND".toList where
  toIsForeignToLists := by constructor <;> decide
  reserved := by decide +kernel

theorem isForeign_order : IsForeign "ORDER".toList where
  toIsForeignToLists := by constructor <;> decide
  reserved := by decide +kernel

def Clause.content (clause : Clause) : String × Condition := (clause.field.name, clause.condition)

def valuesText (values : List String) : List Char :=
  ", ".toList.intercalate (values.map fun value => (quoted value).toList)

theorem toList_text_equals (field : Field) (value : String) :
    (Clause.text ⟨field, .equals value⟩).toList =
      field.name.toList ++ (spaced "=".toList [] ++ (quoted value).toList) := by
  simp [Clause.text, Condition.text, spaced]

theorem toList_text_oneOf (field : Field) (values : List String) :
    (Clause.text ⟨field, .oneOf values⟩).toList =
      field.name.toList ++ (spaced "in".toList "(".toList ++ (valuesText values ++ [')'])) := by
  simp [Clause.text, Condition.text, spaced, joinWith, valuesText, Function.comp_def]

theorem space_notMem_name (field : Field) : ' ' ∉ field.name.toList := by
  cases field with
  | listed field => cases field <;> decide
  | _ => decide

theorem quote_notMem_name (field : Field) : '"' ∉ field.name.toList := by
  cases field with
  | listed field => cases field <;> decide
  | _ => decide

/-- No field has a name that the language reserves. -/
theorem isReserved_name (field : Field) : isReserved field.name = false := by
  cases field with
  | listed field => cases field <;> decide +kernel
  | _ => decide +kernel

variable {word others separator rest : List Char} {clause : Clause}

theorem valuesText_cons_cons (value next : String) (values : List String) :
    valuesText (value :: next :: values) =
      (quoted value).toList ++ (',' :: ' ' :: valuesText (next :: values)) := by
  rw [valuesText, List.map_cons, List.map_cons, List.intercalate_cons_cons, List.append_assoc]
  rfl

theorem valuesText_singleton (value : String) : valuesText [value] = (quoted value).toList := by
  rw [valuesText, List.map_singleton, List.intercalate_singleton]

/-- A value in a list is followed by a comma or by the end of the list. -/
theorem firstWord_valuesText_ne (hword : IsForeignToLists word) (value : String)
    (values : List String) : firstWord (valuesText (value :: values) ++ ')' :: rest) ≠ word := by
  have hquote : '"' ∉ word := hword.no_quote
  cases values with
  | nil =>
    rw [valuesText_singleton]
    exact firstWord_quoted_cons_ne (by decide) hword.no_closing hquote
  | cons next values =>
    rw [valuesText_cons_cons, List.append_assoc]
    exact firstWord_quoted_cons_ne (by decide) hword.no_comma hquote

/-- In a list of values, a separator could begin only behind a comma, where a value stands. -/
theorem uncut_valuesText (hword : IsForeignToLists word) {values : List String}
    (hvalues : ∀ value ∈ values, '"' ∉ value.toList) :
    Uncut isQuote (spaced word others) (')' :: rest) false (valuesText values) := by
  induction values with
  | nil => trivial
  | cons value values ih =>
    obtain ⟨hvalue, hrest⟩ := List.forall_mem_cons.mp hvalues
    cases values with
    | nil =>
      rw [valuesText_singleton]
      exact uncut_quoted hvalue rfl
    | cons next values =>
      -- the space after the comma is the only place where a separator could begin
      rw [valuesText_cons_cons, uncut_append, closed_quoted hvalue]
      refine ⟨uncut_quoted hvalue rfl, uncut_cons rfl (by decide) rfl ?_⟩
      exact uncut_space_cons hword.no_space rfl
        (firstWord_valuesText_ne hword next values) (ih hrest)

theorem closed_valuesText {values : List String}
    (hvalues : ∀ value ∈ values, '"' ∉ value.toList) :
    openAfter isQuote false (valuesText values) = false :=
  closed_intercalate_map rfl fun value hvalue => closed_quoted (hvalues value hvalue)

theorem uncut_name (field : Field) (hspace : separator.head? = some ' ') :
    Uncut isQuote separator rest false field.name.toList :=
  uncut_of_notMem hspace (space_notMem_name field)

theorem closed_name (field : Field) : openAfter isQuote false field.name.toList = false :=
  openAfter_of_unmarked false (isQuote_eq_false (quote_notMem_name field))

theorem uncut_text_equals (hword : IsForeign word) (field : Field) {value : String}
    (hrest : rest = [] ∨ rest.head? = some ' ')
    (hvalue : Uncut isQuote (spaced word others) rest false (quoted value).toList) :
    Uncut isQuote (spaced word others) rest false (Clause.text ⟨field, .equals value⟩).toList := by
  have hspace : ' ' ∉ word := hword.no_space
  have hne : "=".toList ≠ word := by
    rintro rfl
    exact absurd hword.reserved (by decide +kernel)
  have hfirst : firstWord ((quoted value).toList ++ rest) ≠ word :=
    firstWord_quoted_ne hword.reserved hword.no_quote hrest
  rw [toList_text_equals, uncut_append, closed_name]
  refine ⟨uncut_name field rfl, ?_⟩
  refine uncut_spaced_append hspace (by decide) hne rfl (isQuote_eq_false (by decide)) ?_
  exact uncut_space_cons hspace rfl hfirst hvalue

theorem uncut_text_oneOf (hword : IsForeignToLists word) (field : Field) {values : List String}
    (hvalues : ∀ value ∈ values, '"' ∉ value.toList) :
    Uncut isQuote (spaced word others) rest false (Clause.text ⟨field, .oneOf values⟩).toList := by
  have hspace : ' ' ∉ word := hword.no_space
  have hfirst : firstWord ('(' :: (valuesText values ++ [')']) ++ rest) ≠ word := by
    rintro rfl
    exact hword.no_opening List.mem_cons_self
  have hlist : Uncut isQuote (spaced word others) rest false (valuesText values ++ [')']) := by
    rw [uncut_append, closed_valuesText hvalues]
    exact ⟨uncut_valuesText hword hvalues, uncut_cons rfl (by decide) rfl trivial⟩
  rw [toList_text_oneOf, uncut_append, closed_name]
  refine ⟨uncut_name field rfl, ?_⟩
  refine uncut_spaced_append hspace (by decide) (Ne.symm hword.ne_in) rfl
    (isQuote_eq_false (by decide)) ?_
  exact uncut_space_cons hspace rfl hfirst (uncut_cons rfl (by decide) rfl hlist)

/-- No separator is found in a sound clause, whatever follows it behind a space. -/
theorem uncut_text (hclause : IsSound clause) (hword : IsForeign word)
    (hrest : rest = [] ∨ rest.head? = some ' ') :
    Uncut isQuote (spaced word others) rest false clause.text.toList := by
  cases hclause with
  | equals _ hvalue => exact uncut_text_equals hword _ hrest (uncut_quoted hvalue rfl)
  | oneOf _ hvalues => exact uncut_text_oneOf hword.toIsForeignToLists _ hvalues

theorem closed_text (hclause : IsSound clause) :
    openAfter isQuote false clause.text.toList = false := by
  cases hclause with
  | equals _ hvalue =>
    rw [toList_text_equals]
    exact closed_append (closed_name _) (closed_append rfl (closed_quoted hvalue))
  | oneOf _ hvalues =>
    rw [toList_text_oneOf]
    exact closed_append (closed_name _)
      (closed_append rfl (closed_append (closed_valuesText hvalues) rfl))

theorem read_values {values : List String} (hne : values ≠ [])
    (hvalues : ∀ value ∈ values, '"' ∉ value.toList) :
    (pieces isQuote ", ".toList (valuesText values)).map unquote = values := by
  have hpieces : pieces isQuote ", ".toList (valuesText values) =
      values.map fun value => (quoted value).toList :=
    pieces_intercalate_map (by decide) hne fun value hvalue =>
      isPiece_quoted (hvalues value hvalue)
  have hunquote : ∀ value ∈ values, (unquote ∘ fun value => (quoted value).toList) value = value :=
    fun value hvalue => unquote_quoted (hvalues value hvalue)
  rw [hpieces, List.map_map, List.map_congr_left hunquote, List.map_id']

theorem readClause?_text (hclause : IsSound clause) :
    readClause? clause.text.toList = some clause.content := by
  cases hclause with
  | @equals field value _ hvalue =>
    have hcut : cut? isQuote " = ".toList (Clause.text ⟨field, .equals value⟩).toList =
        some (field.name.toList, (quoted value).toList) := by
      rw [toList_text_equals]
      exact cutFrom?_append (by decide) (closed_name field) (uncut_name field rfl)
    rw [readClause?, hcut]
    simp only [unquote_quoted hvalue, String.ofList_toList, Clause.content]
  | @oneOf field values hne hvalues =>
    have hnone : cut? isQuote " = ".toList (Clause.text ⟨.listed field, .oneOf values⟩).toList =
        none :=
      cutFrom?_eq_none (uncut_text_oneOf isForeignToLists_equals (.listed field) hvalues)
    have hcut : cut? isQuote " in (".toList (Clause.text ⟨.listed field, .oneOf values⟩).toList =
        some ((Field.listed field).name.toList, valuesText values ++ [')']) := by
      rw [toList_text_oneOf]
      exact cutFrom?_append (by decide) (closed_name _) (uncut_name _ rfl)
    rw [readClause?, hnone, hcut]
    simp only [List.getLast?_concat, List.dropLast_concat, read_values hne hvalues,
      String.ofList_toList, Clause.content, if_true]

/-- A clause begins with the name of its field as a word of its own. -/
theorem exists_text_eq (clause : Clause) :
    ∃ more, clause.text.toList = clause.field.name.toList ++ ' ' :: more := by
  obtain ⟨field, condition⟩ := clause
  cases condition with
  | equals value => exact ⟨_, toList_text_equals field value⟩
  | oneOf values => exact ⟨_, toList_text_oneOf field values⟩

def clausesText (clauses : List Clause) : List Char :=
  " AND ".toList.intercalate (clauses.map fun clause => clause.text.toList)

theorem clausesText_singleton (clause : Clause) : clausesText [clause] = clause.text.toList := by
  rw [clausesText, List.map_singleton, List.intercalate_singleton]

theorem clausesText_cons_cons (clause next : Clause) (clauses : List Clause) :
    clausesText (clause :: next :: clauses) =
      clause.text.toList ++ (spaced "AND".toList [] ++ clausesText (next :: clauses)) := by
  rw [clausesText, List.map_cons, List.map_cons, List.intercalate_cons_cons, List.append_assoc]
  rfl

theorem exists_clausesText_eq (clause : Clause) (clauses : List Clause) :
    ∃ more, clausesText (clause :: clauses) = clause.field.name.toList ++ ' ' :: more := by
  obtain ⟨more, hmore⟩ := exists_text_eq clause
  cases clauses with
  | nil => exact ⟨more, by rw [clausesText_singleton, hmore]⟩
  | cons next clauses =>
    refine ⟨more ++ (spaced "AND".toList [] ++ clausesText (next :: clauses)), ?_⟩
    rw [clausesText_cons_cons, hmore, List.append_assoc, List.cons_append]

/-- Clauses begin with the name of a field and not with a word of the language. -/
theorem firstWord_clausesText_ne (hword : IsForeign word) (clause : Clause)
    (clauses : List Clause) : firstWord (clausesText (clause :: clauses) ++ rest) ≠ word := by
  obtain ⟨more, hmore⟩ := exists_clausesText_eq clause clauses
  rw [hmore, List.append_assoc, List.cons_append,
    firstWord_append_of_space (space_notMem_name clause.field) (Or.inr rfl)]
  rintro rfl
  have hreserved := hword.reserved
  rw [String.ofList_toList, isReserved_name] at hreserved
  contradiction

/-- A word that separates something else does not separate clauses that stand before it. -/
theorem uncut_clausesText (hword : IsForeign word) (hne : "AND".toList ≠ word)
    {clauses : List Clause}
    (hclauses : ∀ clause ∈ clauses, IsWhole isQuote (spaced word others) clause.text.toList)
    (hrest : rest = [] ∨ rest.head? = some ' ') :
    Uncut isQuote (spaced word others) rest false (clausesText clauses) := by
  have hspace : ' ' ∉ word := hword.no_space
  induction clauses with
  | nil => trivial
  | cons clause clauses ih =>
    obtain ⟨hclause, hmore⟩ := List.forall_mem_cons.mp hclauses
    cases clauses with
    | nil =>
      rw [clausesText_singleton]
      exact hclause.uncut rest hrest
    | cons next clauses =>
      rw [clausesText_cons_cons, uncut_append, hclause.closed]
      refine ⟨hclause.uncut _ (Or.inr rfl), ?_⟩
      refine uncut_spaced_append hspace (by decide) hne rfl (isQuote_eq_false (by decide)) ?_
      exact uncut_space_cons hspace rfl (firstWord_clausesText_ne hword next clauses) (ih hmore)

theorem closed_clausesText {clauses : List Clause}
    (hclauses : ∀ clause ∈ clauses, IsWhole isQuote separator clause.text.toList) :
    openAfter isQuote false (clausesText clauses) = false :=
  closed_intercalate_map rfl fun clause hclause => (hclauses clause hclause).closed

theorem isWhole_text (hclause : IsSound clause) (hword : IsForeign word) :
    IsWhole isQuote (spaced word others) clause.text.toList :=
  ⟨closed_text hclause, fun _ hrest => uncut_text hclause hword hrest⟩

/-- The clauses are cut apart if each of them is left whole. -/
theorem pieces_clausesText {clauses : List Clause} (hne : clauses ≠ [])
    (hclauses : ∀ clause ∈ clauses, IsWhole isQuote " AND ".toList clause.text.toList) :
    pieces isQuote " AND ".toList (clausesText clauses) =
      clauses.map fun clause => clause.text.toList :=
  pieces_intercalate_map (by decide) hne fun clause hclause =>
    (hclauses clause hclause).isPiece rfl

theorem clausesText_ne_nil {clauses : List Clause} (hne : clauses ≠ []) :
    clausesText clauses ≠ [] := by
  obtain ⟨clause, others, rfl⟩ := List.exists_cons_of_ne_nil hne
  obtain ⟨more, hmore⟩ := exists_clausesText_eq clause others
  simp [hmore]

/-- Sound clauses are read as they were written, in their order. -/
theorem readClauses?_clausesText {clauses : List Clause}
    (hclauses : ∀ clause ∈ clauses, IsSound clause) :
    readClauses? (clausesText clauses) = some (clauses.map Clause.content) := by
  by_cases hne : clauses = []
  · rw [hne]
    rfl
  · have hpieces := pieces_clausesText hne fun clause hclause =>
      isWhole_text (hclauses clause hclause) isForeign_and
    rw [readClauses?, if_neg (clausesText_ne_nil hne), hpieces]
    exact mapM_map_eq_some fun clause hclause => readClause?_text (hclauses clause hclause)

end Clauses

section Columns

def columnsText (columns : List Query.SortColumn) : List Char :=
  ", ".toList.intercalate (columns.map fun column => (columnText column).toList)

theorem readColumn?_columnText (column : Query.SortColumn) :
    readColumn? (columnText column).toList = some column := by
  obtain ⟨name, descending⟩ := column
  have hsplit : ∀ direction : List Char, ' ' ∉ direction →
      splitLast? (· == ' ') (name.toList ++ ' ' :: direction) = some (name.toList, direction) := by
    intro direction hdirection
    refine splitLast?_append ?_ name.toList (beq_eq_false_of_notMem hdirection)
    exact beq_self_eq_true ' '
  cases descending with
  | true =>
    have htext : (columnText ⟨name, true⟩).toList = name.toList ++ ' ' :: "DESC".toList := by
      simp [columnText]
    rw [htext, readColumn?, hsplit _ (by decide)]
    simp only [String.ofList_toList, if_true]
  | false =>
    have htext : (columnText ⟨name, false⟩).toList = name.toList ++ ' ' :: "ASC".toList := by
      simp [columnText]
    rw [htext, readColumn?, hsplit _ (by decide)]
    simp

theorem comma_notMem_columnText {column : Query.SortColumn} (h : ',' ∉ column.name.toList) :
    ',' ∉ (columnText column).toList := by
  rw [columnText, String.toList_append, List.mem_append, not_or]
  refine ⟨h, ?_⟩
  split <;> decide

theorem isPiece_columnText {column : Query.SortColumn} (h : ',' ∉ column.name.toList) :
    IsPiece (fun _ => false) ", ".toList (columnText column).toList where
  closed := openAfter_of_unmarked false fun _ _ => rfl
  uncut _ _ := uncut_of_notMem rfl (comma_notMem_columnText h)

/-- Sort columns are read as they were written if there are no commas in their names. -/
theorem read_columns {columns : List Query.SortColumn} (hne : columns ≠ [])
    (hcolumns : ∀ column ∈ columns, ',' ∉ column.name.toList) :
    (pieces (fun _ => false) ", ".toList (columnsText columns)).mapM readColumn? =
      some columns := by
  have hpieces : pieces (fun _ => false) ", ".toList (columnsText columns) =
      columns.map fun column => (columnText column).toList :=
    pieces_intercalate_map (by decide) hne fun column hcolumn =>
      isPiece_columnText (hcolumns column hcolumn)
  rw [hpieces, mapM_map_eq_some fun column _ => readColumn?_columnText column, List.map_id']

end Columns

theorem toList_structured (query : Query) :
    query.structured.toList = clausesText query.clauses ++
      if query.order = [] then [] else " ORDER BY ".toList ++ columnsText query.order := by
  unfold Query.structured clausesText columnsText
  split <;> simp [joinWith, Function.comp_def]

/-- The sort columns are cut off from clauses that stand before them. -/
theorem cut?_structured {query : Query}
    (hclauses : ∀ clause ∈ query.clauses, IsWhole isQuote " ORDER BY ".toList clause.text.toList) :
    cut? isQuote " ORDER BY ".toList query.structured.toList =
      if query.order = [] then none
      else some (clausesText query.clauses, columnsText query.order) := by
  rw [toList_structured]
  split
  · rw [List.append_nil]
    exact cutFrom?_eq_none (uncut_clausesText isForeign_order (by decide) hclauses (Or.inl rfl))
  · exact cutFrom?_append (by decide) (closed_clausesText hclauses)
      (uncut_clausesText isForeign_order (by decide) hclauses (Or.inr rfl))

/-- What a query says in the language can be read in its text. -/
theorem read?_structured {query : Query} (hclauses : ∀ clause ∈ query.clauses, IsSound clause)
    (horder : ∀ column ∈ query.order, ',' ∉ column.name.toList) :
    read? query.structured = some (query.clauses.map Clause.content, query.order) := by
  have hcut := cut?_structured fun clause hclause =>
    isWhole_text (hclauses clause hclause) isForeign_order
  by_cases hnil : query.order = []
  · rw [if_pos hnil] at hcut
    rw [read?, hcut, toList_structured, if_pos hnil, List.append_nil]
    simp only [readClauses?_clausesText hclauses, hnil]
    rfl
  · rw [if_neg hnil] at hcut
    rw [read?, hcut]
    simp only [readClauses?_clausesText hclauses, read_columns hnil horder]
    rfl

end ReleaseNotes.Jql
