import ReleaseNotes.Proofs.Query.Recovery

/-!
Values that stay within their clauses. A query is cut at the words of the language between its
parts, outside quotes. A value is written as it is, with quotes around it at most, so a quote in the
value can leave the rest of the query in quotes or bring a word of the language out of them. A value
without quotes does neither, and neither does one whose clause is left whole by itself.
-/

namespace ReleaseNotes.Jql

open Text

section Cutting

def cutClauses (chars : List Char) : List (List Char) :=
  if chars = [] then [] else pieces isQuote " AND ".toList chars

def cutQuery (text : String) : List (List Char) × Option (List Char) :=
  match cut? isQuote " ORDER BY ".toList text.toList with
  | some (clauses, columns) => (cutClauses clauses, some columns)
  | none => (cutClauses text.toList, none)

/-- All quotes in a clause are closed in it, and it is not cut. -/
structure IsContained (clause : Clause) : Prop where
  closed : openAfter isQuote false clause.text.toList = false
  whole : cutQuery clause.text = ([clause.text.toList], none)

variable {clause : Clause} {word others rest : List Char}

theorem toList_text_ne_nil (clause : Clause) : clause.text.toList ≠ [] := by
  obtain ⟨more, hmore⟩ := exists_text_eq clause
  simp [hmore]

theorem cutClauses_eq_singleton_iff {chars : List Char} :
    cutClauses chars = [chars] ↔
      chars ≠ [] ∧ Uncut isQuote " AND ".toList [] false chars := by
  unfold cutClauses
  split
  · rename_i hnil
    exact ⟨nofun, fun h => absurd hnil h.1⟩
  · rename_i hne
    rw [pieces_eq_singleton_iff (by decide), cut?, cutFrom?_eq_none_iff]
    exact (and_iff_right hne).symm

/-- A clause is contained if its quotes are closed and neither separator can be found in it. -/
theorem isContained_iff : IsContained clause ↔
    openAfter isQuote false clause.text.toList = false ∧
      Uncut isQuote " AND ".toList [] false clause.text.toList ∧
      Uncut isQuote " ORDER BY ".toList [] false clause.text.toList := by
  have hne := toList_text_ne_nil clause
  constructor
  · rintro ⟨hclosed, hwhole⟩
    unfold cutQuery at hwhole
    split at hwhole
    · exact absurd (Prod.mk.inj hwhole).2 (Option.some_ne_none _)
    · rename_i hcut
      have hclauses := (Prod.mk.inj hwhole).1
      exact ⟨hclosed, (cutClauses_eq_singleton_iff.mp hclauses).2, cutFrom?_eq_none_iff.mp hcut⟩
  · rintro ⟨hclosed, hand, horder⟩
    have hcut : cut? isQuote " ORDER BY ".toList clause.text.toList = none :=
      cutFrom?_eq_none horder
    refine ⟨hclosed, ?_⟩
    rw [cutQuery, hcut]
    exact congrArg (·, none) (cutClauses_eq_singleton_iff.mpr ⟨hne, hand⟩)

/-- A single value that has no quotes around it has no spaces and is no word of the language. Any
other clause ends with a sign that no separator has. -/
theorem uncut_text_of_alone (hword : IsForeign word) (hquote : '"' ∉ spaced word others)
    (hclosing : ')' ∉ spaced word others) (hrest : rest = [] ∨ rest.head? = some ' ')
    (h : Uncut isQuote (spaced word others) [] false clause.text.toList) :
    Uncut isQuote (spaced word others) rest false clause.text.toList := by
  obtain ⟨field, condition⟩ := clause
  cases condition with
  | equals value =>
    rcases quoted_cases value with hquoted | ⟨hplain, hspace, _⟩
    · have hlast : (Clause.text ⟨field, .equals value⟩).toList =
          field.name.toList ++ spaced "=".toList [] ++ '"' :: value.toList ++ ['"'] := by
        rw [toList_text_equals, hquoted]
        simp
      rw [hlast] at h ⊢
      exact h.of_last hquote
    · refine uncut_text_equals hword field hrest ?_
      rw [hplain]
      exact uncut_of_notMem rfl hspace
  | oneOf values =>
    have hlast : (Clause.text ⟨field, .oneOf values⟩).toList =
        field.name.toList ++ spaced "in".toList "(".toList ++ valuesText values ++ [')'] := by
      rw [toList_text_oneOf]
      simp
    rw [hlast] at h ⊢
    exact h.of_last hclosing

theorem IsContained.isWhole_and (h : IsContained clause) :
    IsWhole isQuote " AND ".toList clause.text.toList := by
  obtain ⟨hclosed, hand, _⟩ := isContained_iff.mp h
  exact ⟨hclosed, fun _ hrest =>
    uncut_text_of_alone isForeign_and (by decide) (by decide) hrest hand⟩

theorem IsContained.isWhole_order (h : IsContained clause) :
    IsWhole isQuote " ORDER BY ".toList clause.text.toList := by
  obtain ⟨hclosed, _, horder⟩ := isContained_iff.mp h
  exact ⟨hclosed, fun _ hrest =>
    uncut_text_of_alone isForeign_order (by decide) (by decide) hrest horder⟩

/-- Without quotes in its values, a clause is always contained. -/
theorem isContained_of_isSound (h : IsSound clause) : IsContained clause :=
  isContained_iff.mpr ⟨closed_text h, uncut_text h isForeign_and (Or.inl rfl),
    uncut_text h isForeign_order (Or.inl rfl)⟩

/-- A query of contained clauses is cut into the clauses and the sort columns. -/
theorem cutQuery_structured {query : Query} (h : ∀ clause ∈ query.clauses, IsContained clause) :
    cutQuery query.structured = (query.clauses.map fun clause => clause.text.toList,
      if query.order = [] then none else some (columnsText query.order)) := by
  have hclauses : cutClauses (clausesText query.clauses) =
      query.clauses.map fun clause => clause.text.toList := by
    unfold cutClauses
    by_cases hne : query.clauses = []
    · rw [hne]
      rfl
    · rw [if_neg (clausesText_ne_nil hne)]
      exact pieces_clausesText hne fun clause hclause => (h clause hclause).isWhole_and
  have hcut := cut?_structured fun clause hclause => (h clause hclause).isWhole_order
  rw [cutQuery]
  by_cases hnil : query.order = []
  · rw [if_pos hnil] at hcut
    rw [hcut, toList_structured, if_pos hnil, if_pos hnil, List.append_nil, hclauses]
  · rw [if_neg hnil] at hcut
    rw [hcut, if_neg hnil, ← hclauses]

end Cutting

section Changing

def field? : Query.Setting → Option Field
  | .project _ => some .project
  | .fixVersion _ => some .fixVersion
  | .values field _ => some (.listed field)
  | .valueList field _ => some (.listed field)
  | _ => none

/-- The clause that a setting makes, if it makes one, is contained. -/
def MakesContained (setting : Query.Setting) : Prop :=
  ∀ clause, clause? setting = some clause → IsContained clause

def ownText (field : Field) (query : Query) : List (List Char) :=
  ((query.clauses.find? (·.field = field)).map fun clause => clause.text.toList).toList

/-- Cut into parts, two queries are the same but for the clause for a field. -/
def SameElsewhere (field : Field) (first second : Query) : Prop :=
  ∃ before after columns,
    cutQuery first.text = (before ++ ownText field first ++ after, columns) ∧
      cutQuery second.text = (before ++ ownText field second ++ after, columns)

variable {query : Query} {setting : Query.Setting} {field : Field} {clause : Clause}

theorem field_of_clause? (hfield : field? setting = some field)
    (h : clause? setting = some clause) : clause.field = field := by
  cases setting with
  | project name =>
    rw [← Option.some.inj h]
    exact Option.some.inj hfield
  | fixVersion name =>
    rw [← Option.some.inj h]
    exact Option.some.inj hfield
  | values listed text => exact (field_of_listClause? h).trans (Option.some.inj hfield)
  | valueList listed items => exact (field_of_listClause? h).trans (Option.some.inj hfield)
  | _ => contradiction

/-- A setting for a field changes the clauses and nothing else. -/
theorem set_of_field? (hfield : field? setting = some field) (query : Query) :
    query.set setting = { query with
      clauses := (clause? setting).elim query.clauses (setClause · query.clauses) } := by
  rw [set_eq]
  cases setting with
  | filter _ => contradiction
  | sort _ => contradiction
  | urlEncode _ => contradiction
  | _ => rfl

/-- The clause for a field has its place among the others, whatever its value is. -/
theorem exists_around (field : Field) (clauses : List Clause) :
    ∃ before after, (∀ other ∈ before, other.field ≠ field) ∧
      clauses = before ++ (clauses.find? (·.field = field)).toList ++ after ∧
      ∀ clause, clause.field = field → setClause clause clauses = before ++ clause :: after := by
  induction clauses with
  | nil => exact ⟨[], [], nofun, rfl, fun _ _ => rfl⟩
  | cons first rest ih =>
    by_cases hfirst : first.field = field
    · refine ⟨[], rest, nofun, ?_, fun clause hclause => ?_⟩
      · rw [List.find?_cons_of_pos (by simpa using hfirst)]
        rfl
      · rw [setClause, if_pos (hfirst.trans hclause.symm)]
        rfl
    · obtain ⟨before, after, hbefore, hsplit, hset⟩ := ih
      refine ⟨first :: before, after, List.forall_mem_cons.mpr ⟨hfirst, hbefore⟩, ?_,
        fun clause hclause => ?_⟩
      · rw [List.find?_cons_of_neg (by simpa using hfirst)]
        exact congrArg (first :: ·) hsplit
      · rw [setClause, if_neg (hclause ▸ hfirst), hset clause hclause]
        rfl

theorem ownText_around {before after : List Clause}
    (hbefore : ∀ other ∈ before, other.field ≠ field) (hclause : clause.field = field)
    (hclauses : query.clauses = before ++ clause :: after) :
    ownText field query = [clause.text.toList] := by
  have hnone : before.find? (·.field = field) = none := by
    rw [List.find?_eq_none]
    simpa using hbefore
  rw [ownText, hclauses, List.find?_append, hnone,
    List.find?_cons_of_pos (by simpa using hclause)]
  rfl

/-- A setting for a field writes its own clause at the same place as any other one. -/
theorem exists_texts_around (query : Query) (field : Field) :
    ∃ before after, ∀ setting, field? setting = some field →
      ((query.set setting).clauses.map fun clause => clause.text.toList) =
        before ++ ownText field (query.set setting) ++ after := by
  obtain ⟨before, after, hbefore, hsplit, hset⟩ := exists_around field query.clauses
  refine ⟨before.map fun clause => clause.text.toList, after.map fun clause => clause.text.toList,
    fun setting hfield => ?_⟩
  rw [set_of_field? hfield]
  cases hmade : clause? setting with
  | none =>
    rw [Option.elim_none]
    nth_rewrite 1 [hsplit]
    rw [List.map_append, List.map_append, ownText]
    cases query.clauses.find? (·.field = field) <;> rfl
  | some clause =>
    have hown := field_of_clause? hfield hmade
    rw [Option.elim_some, ownText_around hbefore hown (hset clause hown), hset clause hown]
    simp

theorem isContained_of_mem_set (hclauses : ∀ clause ∈ query.clauses, IsContained clause)
    (hfield : field? setting = some field) (hsetting : MakesContained setting) :
    ∀ clause ∈ (query.set setting).clauses, IsContained clause := by
  rw [set_of_field? hfield]
  intro clause hclause
  cases hmade : clause? setting with
  | none =>
    rw [hmade] at hclause
    exact hclauses clause hclause
  | some made =>
    rw [hmade] at hclause
    rcases mem_of_mem_setClause hclause with rfl | hmem
    · exact hsetting clause hmade
    · exact hclauses clause hmem

theorem text_set (hfield : field? setting = some field) (hfilter : query.filter = "")
    (hencode : query.urlEncoded = false) :
    (query.set setting).text = (query.set setting).structured := by
  rw [set_of_field? hfield, Query.text, Query.plain]
  simp only [hencode, hfilter, Bool.false_eq_true, if_false, if_true]

/-- If all clauses are contained, setting one leaves the others as they were. -/
theorem sameElsewhere_of_makesContained {other : Query.Setting} (hfilter : query.filter = "")
    (hencode : query.urlEncoded = false)
    (hclauses : ∀ clause ∈ query.clauses, IsContained clause)
    (hfield : field? setting = some field) (hsetting : MakesContained setting)
    (hotherField : field? other = some field) (hother : MakesContained other) :
    SameElsewhere field (query.set setting) (query.set other) := by
  obtain ⟨before, after, htexts⟩ := exists_texts_around query field
  refine ⟨before, after, if query.order = [] then none else some (columnsText query.order), ?_, ?_⟩
  · have hcut := cutQuery_structured (isContained_of_mem_set hclauses hfield hsetting)
    rw [text_set hfield hfilter hencode, hcut, htexts setting hfield, set_of_field? hfield]
  · have hcut := cutQuery_structured (isContained_of_mem_set hclauses hotherField hother)
    rw [text_set hotherField hfilter hencode, hcut, htexts other hotherField,
      set_of_field? hotherField]

end Changing

section Spreading

variable {query : Query} {setting : Query.Setting} {field : Field} {clause : Clause}

/-- A clause before sort columns is contained if it is cut off whole. -/
theorem isContained_of_cutQuery (hclauses : query.clauses = [clause]) (horder : query.order ≠ [])
    (h : cutQuery query.structured = ([clause.text.toList], some (columnsText query.order))) :
    IsContained clause := by
  unfold cutQuery at h
  split at h
  · rename_i before columns hcut
    obtain ⟨hbefore, hcolumns⟩ := Prod.mk.inj h
    obtain ⟨hsplit, hclosed, huncut⟩ := exists_of_cutFrom? hcut
    rw [toList_structured, hclauses, clausesText_singleton, if_neg horder,
      ← Option.some.inj hcolumns] at hsplit
    obtain rfl := List.append_cancel_right hsplit
    exact isContained_iff.mpr
      ⟨hclosed, (cutClauses_eq_singleton_iff.mp hbefore).2, huncut.alone⟩
  · exact absurd (Prod.mk.inj h).2.symm (Option.some_ne_none _)

def sortedQuery : Query := ⟨"", false, [], [⟨"key", false⟩]⟩

theorem clauses_sortedQuery_set (hfield : field? setting = some field)
    (hmade : clause? setting = some clause) : (sortedQuery.set setting).clauses = [clause] := by
  rw [set_of_field? hfield, hmade]
  rfl

theorem order_sortedQuery_set (hfield : field? setting = some field) :
    (sortedQuery.set setting).order = sortedQuery.order := by rw [set_of_field? hfield]

/-- Some value of every field is contained. -/
theorem exists_contained (field : Field) : ∃ other clause, field? other = some field ∧
    clause? other = some clause ∧ IsContained clause := by
  cases field with
  | project => exact ⟨.project "x", _, rfl, rfl,
      isContained_of_isSound (.equals (Or.inl rfl) (by decide))⟩
  | fixVersion => exact ⟨.fixVersion "x", _, rfl, rfl,
      isContained_of_isSound (.equals (Or.inr rfl) (by decide))⟩
  | listed field => exact ⟨.valueList field ["x"], ⟨.listed field, .oneOf ["x"]⟩, rfl, rfl,
      isContained_of_isSound (.oneOf (by decide) (by decide))⟩

/-- If a value changes nothing outside its clause, with a sort column behind the clause, then the
clause is contained. -/
theorem isContained_of_sameElsewhere {other : Query.Setting} {otherClause : Clause}
    (hfield : field? setting = some field) (hmade : clause? setting = some clause)
    (hotherField : field? other = some field) (hotherMade : clause? other = some otherClause)
    (hother : IsContained otherClause)
    (h : SameElsewhere field (sortedQuery.set setting) (sortedQuery.set other)) :
    IsContained clause := by
  obtain ⟨before, after, columns, hcut, hotherCut⟩ := h
  have hclauses := clauses_sortedQuery_set hfield hmade
  have hotherClauses := clauses_sortedQuery_set hotherField hotherMade
  have hown : ownText field (sortedQuery.set setting) = [clause.text.toList] :=
    ownText_around (List.forall_mem_nil _) (field_of_clause? hfield hmade) hclauses
  have hotherOwn : ownText field (sortedQuery.set other) = [otherClause.text.toList] :=
    ownText_around (List.forall_mem_nil _) (field_of_clause? hotherField hotherMade) hotherClauses
  have hcontained : ∀ made ∈ (sortedQuery.set other).clauses, IsContained made := by
    rw [hotherClauses]
    exact List.forall_mem_singleton.mpr hother
  -- The other query is cut into its clause and the sort column, so nothing is around the clause.
  rw [text_set hotherField rfl rfl, cutQuery_structured hcontained, hotherOwn, hotherClauses,
    order_sortedQuery_set hotherField] at hotherCut
  obtain ⟨hparts, hcolumns⟩ := Prod.mk.inj hotherCut
  have hlength := congrArg List.length hparts
  simp only [List.map_cons, List.map_nil, List.length_append, List.length_singleton] at hlength
  have hbefore : before = [] := List.length_eq_zero_iff.mp (by omega)
  have hafter : after = [] := List.length_eq_zero_iff.mp (by omega)
  subst hbefore hafter
  refine isContained_of_cutQuery hclauses (by rw [order_sortedQuery_set hfield]; exact nofun) ?_
  rw [← text_set hfield rfl rfl, hcut, hown, order_sortedQuery_set hfield, ← hcolumns]
  rfl

end Spreading

/-- A value without quotes makes a contained clause. Whatever the query and the value before it
were, if all of their clauses are contained, then a value changes no other clause and no sort column
exactly if its own clause is contained. -/
theorem sameElsewhere_iff_makesContained {setting : Query.Setting} {field : Field}
    (hfield : field? setting = some field) :
    ((∀ argument ∈ arguments setting, '"' ∉ argument.toList) → MakesContained setting) ∧
      (MakesContained setting ↔ ∀ (query : Query) (other : Query.Setting), query.filter = "" →
        query.urlEncoded = false → (∀ clause ∈ query.clauses, IsContained clause) →
        field? other = some field → MakesContained other →
        SameElsewhere field (query.set setting) (query.set other)) := by
  refine ⟨fun hquotes clause hmade => isContained_of_isSound (isSound_of_clause? hmade hquotes),
    fun hsetting query other hfilter hencode hclauses hotherField hother => ?_,
    fun hsame clause hmade => ?_⟩
  · exact sameElsewhere_of_makesContained hfilter hencode hclauses hfield hsetting hotherField
      hother
  · obtain ⟨other, otherClause, hotherField, hotherMade, hother⟩ := exists_contained field
    have hmakes : MakesContained other := by
      intro made hotherClause
      obtain rfl := Option.some.inj (hotherMade.symm.trans hotherClause)
      exact hother
    exact isContained_of_sameElsewhere hfield hmade hotherField hotherMade hother
      (hsame sortedQuery other rfl rfl nofun hotherField hmakes)

def statusQuery : Query :=
  Query.empty.setAll [.urlEncode false, .project "A", .values .status "Open", .sort "key"]

theorem isContained_even_quotes : IsContained ⟨.project, .equals "R\"n\"D"⟩ :=
  isContained_iff.mpr ⟨by decide, cutFrom?_eq_none_iff.mp (by decide +kernel),
    cutFrom?_eq_none_iff.mp (by decide +kernel)⟩

theorem sameElsewhere_even_quotes : field? (.project "R\"n\"D") = some .project ∧
    (statusQuery.set (.project "R\"n\"D")).text =
      "project = R\"n\"D AND status in (Open) ORDER BY key ASC" ∧
    SameElsewhere .project (statusQuery.set (.project "R\"n\"D"))
      (statusQuery.set (.project "A AND B")) := by
  have heven : MakesContained (.project "R\"n\"D") := by
    rintro clause ⟨⟩
    exact isContained_even_quotes
  have hclauses : ∀ clause ∈ statusQuery.clauses, IsContained clause := by
    have hmade : statusQuery.clauses =
        [⟨.project, .equals "A"⟩, ⟨.listed .status, .oneOf ["Open"]⟩] := by decide +kernel
    rw [hmade, List.forall_mem_cons, List.forall_mem_singleton]
    exact ⟨isContained_of_isSound (.equals (Or.inl rfl) (by decide)),
      isContained_of_isSound (.oneOf (by decide) (by decide))⟩
  have hwords : MakesContained (.project "A AND B") :=
    (sameElsewhere_iff_makesContained rfl).1 (by decide)
  exact ⟨rfl, by decide +kernel, (sameElsewhere_iff_makesContained rfl).2.mp heven statusQuery _
    (by decide +kernel) (by decide +kernel) hclauses rfl hwords⟩

/-- A quote in the project leaves the sort column in quotes. -/
theorem not_sameElsewhere_odd_quotes : statusQuery.filter = "" ∧ statusQuery.urlEncoded = false ∧
    (statusQuery.set (.project "A\"")).text =
      "project = A\" AND status in (Open) ORDER BY key ASC" ∧
    ¬SameElsewhere .project (statusQuery.set (.project "A"))
      (statusQuery.set (.project "A\"")) := by
  refine ⟨by decide +kernel, by decide +kernel, by decide +kernel, ?_⟩
  rintro ⟨_, _, columns, hplain, hquote⟩
  have hsame : (cutQuery (statusQuery.set (.project "A")).text).2 =
      (cutQuery (statusQuery.set (.project "A\"")).text).2 := by rw [hplain, hquote]
  exact absurd hsame (by decide +kernel)

end ReleaseNotes.Jql
