import ReleaseNotes.Proofs.Query.Reading
import ReleaseNotes.Proofs.Query.Run
import ReleaseNotes.Proofs.Text.Lowering

/-!
The clauses and the sort columns that settings make can be recovered from the text of their query if
the settings have no quotes in them. Two such runs of settings have the same text only if they have
the same clauses and the same sort columns.
-/

namespace ReleaseNotes.Jql

open Text

def arguments : Query.Setting → List String
  | .filter text => [text]
  | .project name => [name]
  | .fixVersion name => [name]
  | .values _ text => [text]
  | .valueList _ items => items
  | .sort columns => [columns]
  | .urlEncode _ => []

/-- Settings whose query is text of the language: it is no filter, it is not encoded, and there are
no quotes in what the settings are made with. -/
structure IsReadable (settings : List Query.Setting) : Prop where
  no_filter : (last? filter? settings).getD "" = ""
  not_encoded : last? urlEncode? settings = some false
  no_quotes : ∀ setting ∈ settings, ∀ argument ∈ arguments setting, '"' ∉ argument.toList

variable {settings : List Query.Setting} {setting : Query.Setting} {clause : Clause}

theorem quote_notMem_trim {text : String} (h : '"' ∉ text.toList) : '"' ∉ (trim text).toList := by
  rw [toList_trim]
  exact fun hmem => h (mem_of_mem_trimChars hmem)

theorem isSound_of_listClause? {field : Query.ListField} {items : List String}
    (h : listClause? field items = some clause) (hitems : ∀ item ∈ items, '"' ∉ item.toList) :
    IsSound clause := by
  unfold listClause? at h
  split at h
  · contradiction
  · rename_i hne
    obtain rfl := Option.some.inj h
    refine .oneOf (by simpa using hne) fun value hvalue => ?_
    obtain ⟨item, hitem, rfl⟩ := List.mem_map.mp hvalue
    exact quote_notMem_trim (hitems item (List.mem_filter.mp hitem).1)

/-- Settings without quotes make sound clauses only. -/
theorem isSound_of_clause? (h : clause? setting = some clause)
    (hquotes : ∀ argument ∈ arguments setting, '"' ∉ argument.toList) : IsSound clause := by
  cases setting with
  | project name =>
    obtain rfl := Option.some.inj h
    exact .equals (Or.inl rfl) (quote_notMem_trim (hquotes name List.mem_cons_self))
  | fixVersion name =>
    obtain rfl := Option.some.inj h
    exact .equals (Or.inr rfl) (quote_notMem_trim (hquotes name List.mem_cons_self))
  | values field text =>
    refine isSound_of_listClause? h fun item hitem hquote => ?_
    exact hquotes text List.mem_cons_self (mem_of_mem_splitAt hitem hquote).1
  | valueList field items => exact isSound_of_listClause? h hquotes
  | _ => contradiction

/-- The name of a column is a part of the lower-cased text. -/
theorem mem_of_mem_name_ofText {text : String} {c : Char}
    (h : c ∈ (Query.SortColumn.ofText text).name.toList) :
    c ∈ lowerChars (trimChars text.toList) := by
  have hwhole : ∀ chars : List Char, c ∈ (String.ofList (trimChars chars)).toList → c ∈ chars := by
    intro chars hc
    rw [String.toList_ofList] at hc
    exact mem_of_mem_trimChars hc
  unfold Query.SortColumn.ofText at h
  dsimp only at h
  split at h
  · rename_i hsplit
    split at h
    · exact mem_of_splitLast? hsplit (hwhole _ h)
    · exact hwhole _ h
  · split at h
    · contradiction
    · exact hwhole _ h

theorem comma_notMem_of_mem_usableColumns {text : String} {column : Query.SortColumn}
    (h : column ∈ usableColumns text) : ',' ∉ column.name.toList := by
  obtain ⟨given, hgiven, rfl⟩ := List.mem_map.mp h
  obtain ⟨part, hpart, rfl⟩ := List.mem_map.mp (List.mem_filter.mp hgiven).1
  rw [String.toList_ofList]
  intro hcomma
  have hname := mem_of_mem_name_ofText (List.mem_filter.mp hcomma).1
  have htrimmed := mem_of_mem_lowerChars (by decide) (by decide) hname
  exact (mem_of_mem_splitAt hpart (mem_of_mem_trimChars htrimmed)).2 rfl

theorem isSound_of_mem_clauses (h : IsReadable settings) :
    ∀ clause ∈ (ofSettings settings).clauses, IsSound clause := by
  intro clause hclause
  obtain ⟨setting, hsetting, hmade⟩ := List.mem_filterMap.mp (mem_of_mem_lasting hclause)
  exact isSound_of_clause? hmade (h.no_quotes setting hsetting)

theorem comma_notMem_of_mem_order :
    ∀ column ∈ (ofSettings settings).order, ',' ∉ column.name.toList := by
  intro column hcolumn
  unfold ofSettings at hcolumn
  cases hsort : last? sort? settings with
  | none => simp [hsort] at hcolumn
  | some text =>
    rw [hsort] at hcolumn
    exact comma_notMem_of_mem_usableColumns hcolumn

/-- Without a filter and without encoding, a query is the text of its clauses and columns. -/
theorem text_of_isReadable (h : IsReadable settings) :
    (ofSettings settings).text = (ofSettings settings).structured := by
  have hencoded : (ofSettings settings).urlEncoded = false := by
    rw [ofSettings, h.not_encoded]
    rfl
  have hfilter : (ofSettings settings).filter = "" := h.no_filter
  rw [Query.text, hencoded, Query.plain, if_pos hfilter]
  rfl

theorem name_listed_injective {first second : Query.ListField}
    (h : (Field.listed first).name = (Field.listed second).name) : first = second := by
  cases first <;> cases second <;> first | rfl | exact absurd h (by decide)

theorem project_name_ne : Field.project.name ≠ Field.fixVersion.name := by decide

/-- Two clauses that look alike to a reader are for the same field, since the name and the form of
the condition tell the fields apart. -/
theorem eq_of_content_eq {first second : Clause} (hfirst : IsSound first) (hsecond : IsSound second)
    (h : first.content = second.content) : first = second := by
  obtain ⟨hname, hcondition⟩ := Prod.mk.inj h
  cases hfirst with
  | equals hfield _ =>
    cases hsecond with
    | equals hother _ =>
      rcases hfield with rfl | rfl
      · rcases hother with rfl | rfl
        · exact congrArg (Clause.mk .project) hcondition
        · exact absurd hname project_name_ne
      · rcases hother with rfl | rfl
        · exact absurd hname.symm project_name_ne
        · exact congrArg (Clause.mk .fixVersion) hcondition
    | oneOf _ _ => contradiction
  | oneOf _ _ =>
    cases hsecond with
    | equals _ _ => contradiction
    | oneOf _ _ =>
      obtain rfl := name_listed_injective hname
      exact congrArg (Clause.mk (.listed _)) hcondition

/-- Sound clauses are known by what is read of them: the condition tells the two kinds apart. -/
theorem eq_of_map_content_eq {first second : List Clause}
    (hfirst : ∀ clause ∈ first, IsSound clause) (hsecond : ∀ clause ∈ second, IsSound clause)
    (h : first.map Clause.content = second.map Clause.content) : first = second := by
  induction first generalizing second with
  | nil => exact (List.map_eq_nil_iff.mp h.symm).symm
  | cons clause first ih =>
    cases second with
    | nil => contradiction
    | cons other second =>
      obtain ⟨hclause, hrest⟩ := List.forall_mem_cons.mp hfirst
      obtain ⟨hother, hothers⟩ := List.forall_mem_cons.mp hsecond
      obtain ⟨hhead, htail⟩ := List.cons.inj h
      rw [eq_of_content_eq hclause hother hhead, ih hrest hothers htail]

/-- Reading the query recovers all clauses and sort columns that the settings have made. -/
theorem read?_text (h : IsReadable settings) :
    read? (ofSettings settings).text =
      some ((ofSettings settings).clauses.map Clause.content, (ofSettings settings).order) := by
  rw [text_of_isReadable h]
  exact read?_structured (isSound_of_mem_clauses h) comma_notMem_of_mem_order

/-- A reader recovers the clauses and the sort columns of a query from its text, so queries with the
same text have the same clauses and the same sort columns. -/
theorem text_determines_query (h : IsReadable settings) :
    let query := Query.empty.setAll settings
    read? query.text = some (query.clauses.map Clause.content, query.order) ∧
      ∀ others, IsReadable others →
        let other := Query.empty.setAll others
        (query.text = other.text ↔ query.clauses = other.clauses ∧ query.order = other.order) := by
  simp only [setAll_empty]
  refine ⟨read?_text h, fun others hothers => ⟨fun htext => ?_, fun hsame => ?_⟩⟩
  · have hread := read?_text h
    rw [htext, read?_text hothers, Option.some.injEq, Prod.mk.injEq] at hread
    obtain ⟨hclauses, horder⟩ := hread
    refine ⟨?_, horder.symm⟩
    exact (eq_of_map_content_eq (isSound_of_mem_clauses hothers) (isSound_of_mem_clauses h)
      hclauses).symm
  · rw [text_of_isReadable h, text_of_isReadable hothers, Query.structured, Query.structured,
      hsame.1, hsame.2]

def sampleSettings : List Query.Setting :=
  [ .urlEncode false, .project " a AND b ", .values .component "core,, =",
    .valueList .status ["x, y", "in (z)", "Order", ","], .sort "Due Date desc, key" ]

theorem isReadable_sample : IsReadable sampleSettings :=
  ⟨by decide, by decide, by decide⟩

theorem isReadable_sample_reverse : IsReadable sampleSettings.reverse :=
  ⟨by decide, by decide, by decide⟩

theorem text_determines_query_sample :
    IsReadable sampleSettings ∧ IsReadable sampleSettings.reverse ∧
      (Query.empty.setAll sampleSettings).text =
        "project = \"a AND b\" AND component in (core, =) AND " ++
          "status in (\"x, y\", \"in (z)\", \"Order\", ,) ORDER BY duedate DESC, key ASC" ∧
      read? (Query.empty.setAll sampleSettings).text = some
        ([ ("project", .equals "a AND b"), ("component", .oneOf ["core", "="]),
            ("status", .oneOf ["x, y", "in (z)", "Order", ","]) ],
          [⟨"duedate", true⟩, ⟨"key", false⟩]) ∧
      (Query.empty.setAll sampleSettings).text ≠
        (Query.empty.setAll sampleSettings.reverse).text := by
  obtain ⟨hread, hsame⟩ := text_determines_query isReadable_sample
  refine ⟨isReadable_sample, isReadable_sample_reverse, by decide +kernel, ?_, ?_⟩
  · rw [hread]
    decide +kernel
  · intro htext
    exact absurd ((hsame _ isReadable_sample_reverse).mp htext).1 (by decide +kernel)

end ReleaseNotes.Jql
