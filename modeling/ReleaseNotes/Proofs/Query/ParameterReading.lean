import ReleaseNotes.Proofs.Query.Run
import ReleaseNotes.Proofs.Text.Cutting
import ReleaseNotes.Proofs.Traversal
import ReleaseNotes.Query.Parameters

/-!
Parameters that are read back from the text of their query, cut at every ampersand and each part at
its first equals sign. A run of settings adds the parameters of one setting after another. Names of
parameters have neither sign, but the names of versions and components go into the text as they are,
so the parameters can be read back exactly if none of these names has an ampersand.
-/

namespace ReleaseNotes.Parameters

open Text

section Contributions

def parameterName : Query.ListField → String
  | .fixVersion => "fixfor"
  | .status => "statusIds"
  | .resolution => "resolutionIds"
  | .priority => "priorityIds"
  | .issueType => "type"
  | .component => "component"

/-- What stands for a value of a field, if the value is known. Versions and components stand for
themselves. -/
def valueText? : Query.ListField → String → Option String
  | .fixVersion, value => some value
  | .status, value => statusNumber? value
  | .resolution, value => resolutionNumbers.lookup value
  | .priority, value => priorityNumbers.lookup value
  | .issueType, value => typeNumbers.lookup value
  | .component, value => some value

def itemParameter? (field : Query.ListField) (item : String) : Option Parameter :=
  if isBlankText item then none
  else (valueText? field (trim item)).map (Parameter.mk (parameterName field))

/-- The parameters that a setting contributes. Only components can come as separate items. -/
def contribution : Query.Setting → List Parameter
  | .values field text => (splitAt ',' text).filterMap (itemParameter? field)
  | .valueList .component items => items.filterMap (itemParameter? .component)
  | .sort text => (Query.sortColumns text).reverse.flatMap columnParameters
  | _ => []

theorem valueParameters_eq_filterMap (field : Query.ListField) (values : List String) :
    valueParameters field values = values.filterMap fun value =>
      (valueText? field value).map (Parameter.mk (parameterName field)) := by
  cases field with
  | fixVersion => exact List.filterMap_eq_map.symm ▸ rfl
  | component => exact List.filterMap_eq_map.symm ▸ rfl
  | _ => exact List.map_filterMap

theorem valueParameters_trimmedItems (field : Query.ListField) (items : List String) :
    valueParameters field (trimmedItems items) = items.filterMap (itemParameter? field) := by
  rw [valueParameters_eq_filterMap, trimmedItems_eq_map, nonBlankItems, List.filterMap_map,
    List.filterMap_filter]
  apply List.filterMap_congr
  intro item _
  rw [itemParameter?]
  cases isBlankText item <;> rfl

theorem settingParameters_eq_contribution (setting : Query.Setting) :
    settingParameters setting = contribution setting := by
  cases setting with
  | values field text => exact valueParameters_trimmedItems field (splitAt ',' text)
  | valueList field items =>
    cases field with
    | component => exact valueParameters_trimmedItems .component items
    | _ => rfl
  | _ => rfl

end Contributions

section Runs

/-- What one setting does to a query, whether these queries have its operation or not. -/
theorem toOption_set_getD (query : Query) (setting : Query.Setting) :
    (query.set setting).toOption.getD query =
      { filter := (Jql.filter? setting).getD query.filter
        parameters := query.parameters ++ contribution setting } := by
  rw [← settingParameters_eq_contribution]
  have hnone : query = { query with parameters := query.parameters ++ [] } := by
    rw [List.append_nil]
  cases setting with
  | filter text => exact congrArg (Query.mk text) (List.append_nil _).symm
  | valueList field items =>
    cases field with
    | component => rfl
    | _ => exact hnone
  | _ => rfl

/-- A run adds the parameters of its settings in order. Of the filters only the last one counts. -/
theorem setAll_eq (query : Query) (settings : List Query.Setting) :
    query.setAll settings =
      { filter := (Jql.last? Jql.filter? settings).getD query.filter
        parameters := query.parameters ++ settings.flatMap contribution } := by
  induction settings using List.reverseRecOn with
  | nil => exact congrArg (Query.mk query.filter) (List.append_nil _).symm
  | append_singleton settings setting ih =>
    have hstep : query.setAll (settings ++ [setting]) =
        ((query.setAll settings).set setting).toOption.getD (query.setAll settings) := by
      rw [Query.setAll, List.foldl_append]
      rfl
    rw [hstep, toOption_set_getD, ih, Jql.last?_append_singleton, List.flatMap_append,
      List.flatMap_singleton, List.append_assoc]
    cases Jql.filter? setting <;> rfl

end Runs

section Reading

def written (parameter : Parameter) : String := parameter.name ++ "=" ++ parameter.value

/-- A part of a text as a parameter. The name ends at the first equals sign. -/
def readParameter? (part : String) : Option Parameter :=
  (splitFirst? (· == '=') part.toList).map fun (name, value) =>
    ⟨String.ofList name, String.ofList value⟩

def readParameters? (text : String) : Option (List Parameter) :=
  (splitAt '&' text).tail.mapM readParameter?

variable {parameter : Parameter} {parameters : List Parameter}

/-- A parameter is read back, whatever its value is, if its name has no equals sign. -/
theorem readParameter?_written (h : '=' ∉ parameter.name.toList) :
    readParameter? (written parameter) = some parameter := by
  have hchars : (written parameter).toList =
      parameter.name.toList ++ '=' :: parameter.value.toList := by
    simp [written]
  have hsplit : splitFirst? (· == '=') (written parameter).toList =
      some (parameter.name.toList, parameter.value.toList) := by
    rw [hchars]
    refine splitFirst?_append ?_ (beq_eq_false_of_notMem h) _
    exact beq_self_eq_true '='
  rw [readParameter?, hsplit]
  simp only [Option.map_some, String.ofList_toList]

theorem eq_written_of_readParameter? {part : String} (h : readParameter? part = some parameter) :
    part = written parameter := by
  obtain ⟨⟨name, value⟩, hsplit, rfl⟩ := Option.map_eq_some_iff.mp h
  obtain ⟨separator, hseparator, hchars⟩ := exists_of_splitFirst? hsplit
  obtain rfl : separator = '=' := by simpa using hseparator
  rw [← String.toList_inj, hchars]
  simp [written]

/-- The text of a list of parameters has their own parts, one after the other. -/
theorem splitAt_join_parameterText (parameters : List Parameter) :
    splitAt '&' (String.join (parameters.map Query.parameterText)) =
      "" :: parameters.flatMap fun parameter => splitAt '&' (written parameter) := by
  -- Each part ends where the next one begins, so the induction needs a text before the ampersands.
  have hchars : ∀ before : List Char,
      (before ++ parameters.flatMap fun parameter => '&' :: (written parameter).toList).splitOn
          '&' =
        before.splitOn '&' ++
          parameters.flatMap fun parameter => (written parameter).toList.splitOn '&' := by
    induction parameters with
    | nil => intro before; simp
    | cons first rest ih =>
      intro before
      rw [List.flatMap_cons, List.cons_append, List.splitOn_append_cons_self, ih,
        List.flatMap_cons]
  have htext : (String.join (parameters.map Query.parameterText)).toList =
      parameters.flatMap fun parameter => '&' :: (written parameter).toList := by
    rw [String.toList_join, List.flatMap_map]
    congr 1
    funext parameter
    simp [Query.parameterText, written]
  rw [splitAt, htext, ← List.nil_append (List.flatMap _ _), hchars []]
  simp [splitAt, List.map_flatMap]

/-- No text is read as parameters with an ampersand in them. -/
theorem ampersand_notMem_of_readParameters? {text : String}
    (h : readParameters? text = some parameters) :
    ∀ parameter ∈ parameters, '&' ∉ parameter.value.toList := by
  intro parameter hparameter hmem
  obtain ⟨part, hpart, hread⟩ := exists_of_mapM_eq_some h hparameter
  obtain rfl := eq_written_of_readParameter? hread
  have hmem' : '&' ∈ (written parameter).toList := by simp [written, hmem]
  exact (mem_of_mem_splitAt (List.mem_of_mem_tail hpart) hmem').2 rfl

/-- Parameters with plain names are read back from their text if there is no ampersand in a value,
and only then. -/
theorem readParameters?_join_eq_some_iff
    (h : ∀ parameter ∈ parameters, '&' ∉ parameter.name.toList ∧ '=' ∉ parameter.name.toList) :
    readParameters? (String.join (parameters.map Query.parameterText)) = some parameters ↔
      ∀ parameter ∈ parameters, '&' ∉ parameter.value.toList := by
  refine ⟨ampersand_notMem_of_readParameters?, fun hvalues => ?_⟩
  have hparts : (parameters.flatMap fun parameter => splitAt '&' (written parameter)) =
      parameters.map written := by
    rw [List.map_eq_flatMap]
    apply List.flatMap_congr
    intro parameter hparameter
    have hwritten : '&' ∉ (written parameter).toList := by
      simp [written, (h parameter hparameter).1, hvalues parameter hparameter]
    rw [splitAt, List.splitOn_eq_singleton hwritten, List.map_singleton, String.ofList_toList]
  rw [readParameters?, splitAt_join_parameterText, List.tail_cons, hparts]
  simpa using mapM_map_eq_some fun parameter hparameter =>
    readParameter?_written (h parameter hparameter).2

end Reading

section Ampersands

def names : Query.Setting → List String
  | .values .fixVersion text => splitAt ',' text
  | .values .component text => splitAt ',' text
  | .valueList .component items => items
  | _ => []

variable {setting : Query.Setting} {parameter : Parameter}

theorem ampersand_notMem_of_lookup {table : List (String × String)} {key value : String}
    (htable : ∀ entry ∈ table, '&' ∉ entry.2.toList) (h : table.lookup key = some value) :
    '&' ∉ value.toList :=
  htable (key, value) (mem_of_lookup_eq_some h)

theorem ampersand_notMem_of_isInt32 {text : String} (h : isInt32 text = true) :
    '&' ∉ text.toList := by
  have hdigits : ∀ digits : List Char, isDigits digits = true → '&' ∉ digits := by
    intro digits h hmem
    have hall := (Bool.and_eq_true_iff.mp h).2
    have hdigit : Char.isDigit '&' = true := List.all_eq_true.mp hall '&' hmem
    contradiction
  unfold isInt32 at h
  split at h
  · rename_i digits htext
    rw [htext, List.mem_cons, not_or]
    exact ⟨by decide, hdigits digits (Bool.and_eq_true_iff.mp h).1⟩
  · rename_i digits htext
    rw [htext, List.mem_cons, not_or]
    exact ⟨by decide, hdigits digits (Bool.and_eq_true_iff.mp h).1⟩
  · exact hdigits text.toList (Bool.and_eq_true_iff.mp h).1

theorem ampersand_notMem_of_statusNumber? {status number : String}
    (h : statusNumber? status = some number) : '&' ∉ number.toList := by
  unfold statusNumber? at h
  split at h
  · rename_i found hfound
    obtain rfl := Option.some.inj h
    exact ampersand_notMem_of_lookup (by decide) hfound
  · split at h
    · rename_i hnumber
      obtain rfl := Option.some.inj h
      exact ampersand_notMem_of_isInt32 hnumber
    · contradiction

theorem plain_parameterName (field : Query.ListField) :
    '&' ∉ (parameterName field).toList ∧ '=' ∉ (parameterName field).toList := by
  cases field <;> decide

/-- Of the values that are known, only versions and components can have an ampersand. -/
theorem ampersand_notMem_of_valueText? {field : Query.ListField} {value text : String}
    (h : valueText? field value = some text) (hversion : field ≠ .fixVersion)
    (hcomponent : field ≠ .component) : '&' ∉ text.toList := by
  cases field with
  | fixVersion => contradiction
  | component => contradiction
  | status => exact ampersand_notMem_of_statusNumber? h
  | resolution => exact ampersand_notMem_of_lookup (by decide) h
  | priority => exact ampersand_notMem_of_lookup (by decide) h
  | issueType => exact ampersand_notMem_of_lookup (by decide) h

theorem itemParameter?_eq_some_iff {field : Query.ListField} {item : String} :
    itemParameter? field item = some parameter ↔ isBlankText item = false ∧
      parameter.name = parameterName field ∧
        valueText? field (trim item) = some parameter.value := by
  unfold itemParameter?
  cases isBlankText item with
  | true => simp
  | false =>
    rw [if_neg Bool.false_ne_true, Option.map_eq_some_iff]
    constructor
    · rintro ⟨value, hvalue, rfl⟩
      exact ⟨rfl, rfl, hvalue⟩
    · rintro ⟨_, hname, hvalue⟩
      exact ⟨parameter.value, hvalue, by rw [← hname]⟩

/-- Trimming keeps an ampersand, so an item with one is in the text of its parameter. -/
theorem ampersand_notMem_items_iff {field : Query.ListField}
    (hfield : ∀ value, valueText? field value = some value) (items : List String) :
    (∀ parameter ∈ items.filterMap (itemParameter? field), '&' ∉ parameter.value.toList) ↔
      ∀ item ∈ items, '&' ∉ item.toList := by
  have hblank : isBlank '&' = false := by decide
  constructor
  · intro h item hitem hmem
    have hnonblank : isBlankText item = false := by
      rw [isBlankText, List.all_eq_false]
      exact ⟨'&', hmem, by decide⟩
    have hgiven : itemParameter? field item = some ⟨parameterName field, trim item⟩ :=
      itemParameter?_eq_some_iff.mpr ⟨hnonblank, rfl, hfield _⟩
    refine h _ (List.mem_filterMap.mpr ⟨item, hitem, hgiven⟩) ?_
    rw [toList_trim]
    exact mem_trimChars hblank hmem
  · intro h parameter hparameter hmem
    obtain ⟨item, hitem, hgiven⟩ := List.mem_filterMap.mp hparameter
    obtain ⟨_, _, hvalue⟩ := itemParameter?_eq_some_iff.mp hgiven
    have hsame : trim item = parameter.value := Option.some.inj ((hfield _).symm.trans hvalue)
    rw [← hsame, toList_trim] at hmem
    exact h item hitem (mem_of_mem_trimChars hmem)

/-- The parameters of a sort text have fixed names and values. -/
theorem plain_of_mem_columnParameters {column : Query.SortColumn}
    (h : parameter ∈ columnParameters column) :
    ('&' ∉ parameter.name.toList ∧ '=' ∉ parameter.name.toList) ∧
      '&' ∉ parameter.value.toList := by
  unfold columnParameters at h
  split at h
  · rename_i field hfield
    have hplain : '&' ∉ field.toList := ampersand_notMem_of_lookup (by decide) hfield
    have hfieldName : '&' ∉ "sorter/field".toList ∧ '=' ∉ "sorter/field".toList := by decide
    have horderName : '&' ∉ "sorter/order".toList ∧ '=' ∉ "sorter/order".toList := by decide
    rcases List.mem_pair.mp h with rfl | rfl
    · exact ⟨hfieldName, hplain⟩
    · refine ⟨horderName, ?_⟩
      dsimp only
      split <;> decide
  · contradiction

/-- The signs that separate parameters are in none of their names. -/
theorem plain_name_of_mem_contribution (h : parameter ∈ contribution setting) :
    '&' ∉ parameter.name.toList ∧ '=' ∉ parameter.name.toList := by
  have hitems : ∀ {field : Query.ListField} {items : List String},
      parameter ∈ items.filterMap (itemParameter? field) →
        '&' ∉ parameter.name.toList ∧ '=' ∉ parameter.name.toList := by
    intro field items hmem
    obtain ⟨item, _, hgiven⟩ := List.mem_filterMap.mp hmem
    rw [(itemParameter?_eq_some_iff.mp hgiven).2.1]
    exact plain_parameterName field
  cases setting with
  | values field text => exact hitems h
  | valueList field items =>
    cases field with
    | component => exact hitems h
    | _ => contradiction
  | sort text =>
    obtain ⟨column, _, hmem⟩ := List.mem_flatMap.mp h
    exact (plain_of_mem_columnParameters hmem).1
  | _ => contradiction

/-- The values that a setting contributes have no ampersand exactly if none of the names of versions
and components has one. -/
theorem ampersand_notMem_contribution_iff (setting : Query.Setting) :
    (∀ parameter ∈ contribution setting, '&' ∉ parameter.value.toList) ↔
      ∀ name ∈ names setting, '&' ∉ name.toList := by
  cases setting with
  | values field text =>
    have hknown : field ≠ .fixVersion → field ≠ .component →
        ∀ parameter ∈ contribution (.values field text), '&' ∉ parameter.value.toList := by
      intro hversion hcomponent parameter hparameter
      obtain ⟨item, _, hgiven⟩ := List.mem_filterMap.mp hparameter
      exact ampersand_notMem_of_valueText? (itemParameter?_eq_some_iff.mp hgiven).2.2 hversion
        hcomponent
    cases field with
    | fixVersion => exact ampersand_notMem_items_iff (fun _ => rfl) (splitAt ',' text)
    | component => exact ampersand_notMem_items_iff (fun _ => rfl) (splitAt ',' text)
    | _ => exact iff_of_true (hknown nofun nofun) (List.forall_mem_nil _)
  | valueList field items =>
    cases field with
    | component => exact ampersand_notMem_items_iff (fun _ => rfl) items
    | _ => exact iff_of_true (List.forall_mem_nil _) (List.forall_mem_nil _)
  | sort text =>
    refine iff_of_true (fun parameter hparameter => ?_) (List.forall_mem_nil _)
    obtain ⟨column, _, hmem⟩ := List.mem_flatMap.mp hparameter
    exact (plain_of_mem_columnParameters hmem).2
  | _ => exact iff_of_true (List.forall_mem_nil _) (List.forall_mem_nil _)

end Ampersands

/-- The parts of a query without a filter, cut at the ampersands, are those of the parameters that
its settings contribute. They can be read back as these parameters exactly if no name of a version
or a component has an ampersand. -/
theorem readParameters?_text_iff {settings : List Query.Setting}
    (hfilter : (Jql.last? Jql.filter? settings).getD "" = "") :
    let text := (Query.empty.setAll settings).text
    let contributed := settings.flatMap contribution
    splitAt '&' text =
        "" :: contributed.flatMap (fun parameter =>
          splitAt '&' (parameter.name ++ "=" ++ parameter.value)) ∧
      (readParameters? text = some contributed ↔
        ∀ setting ∈ settings, ∀ name ∈ names setting, '&' ∉ name.toList) := by
  intro text contributed
  have htext : text = String.join (contributed.map Query.parameterText) := by
    have hrun := setAll_eq Query.empty settings
    have hnone : (Query.empty.setAll settings).filter = "" := by
      rw [hrun]
      exact hfilter
    have hparameters : (Query.empty.setAll settings).parameters = contributed := by
      rw [hrun]
      exact List.nil_append _
    rw [← hparameters]
    exact if_pos hnone
  have hplain : ∀ parameter ∈ contributed,
      '&' ∉ parameter.name.toList ∧ '=' ∉ parameter.name.toList := by
    intro parameter hparameter
    obtain ⟨setting, _, hmem⟩ := List.mem_flatMap.mp hparameter
    exact plain_name_of_mem_contribution hmem
  rw [htext]
  refine ⟨splitAt_join_parameterText contributed, ?_⟩
  rw [readParameters?_join_eq_some_iff hplain, List.forall_mem_flatMap]
  exact forall₂_congr fun setting _ => ampersand_notMem_contribution_iff setting

def sampleSettings : List Query.Setting :=
  [ .project "R&D", .values .status "Open, +07, Lost", .values .component " a=b,, core ",
    .valueList .status ["Open"], .valueList .component ["=", " "], .values .issueType "Bug,Epic",
    .values .fixVersion "1.0 beta", .sort "key DESC, rank, Fix Version" ]

/-- Values that are known, unknown or have an equals sign in them. -/
theorem readParameters?_text_sample :
    (Jql.last? Jql.filter? sampleSettings).getD "" = "" ∧
      (∀ setting ∈ sampleSettings, ∀ name ∈ names setting, '&' ∉ name.toList) ∧
      (Query.empty.setAll sampleSettings).text =
        "&statusIds=1&statusIds=+07&component=a=b&component=core&component==&type=1" ++
          "&fixfor=1.0 beta&sorter/field=fixVersions&sorter/order=ASC" ++
          "&sorter/field=issuekey&sorter/order=DESC" ∧
      readParameters? (Query.empty.setAll sampleSettings).text = some
        [ ⟨"statusIds", "1"⟩, ⟨"statusIds", "+07"⟩, ⟨"component", "a=b"⟩, ⟨"component", "core"⟩,
          ⟨"component", "="⟩, ⟨"type", "1"⟩, ⟨"fixfor", "1.0 beta"⟩,
          ⟨"sorter/field", "fixVersions"⟩, ⟨"sorter/order", "ASC"⟩,
          ⟨"sorter/field", "issuekey"⟩, ⟨"sorter/order", "DESC"⟩ ] := by
  have hfilter : (Jql.last? Jql.filter? sampleSettings).getD "" = "" := by decide
  have hnames : ∀ setting ∈ sampleSettings, ∀ name ∈ names setting, '&' ∉ name.toList := by
    decide
  refine ⟨hfilter, hnames, by decide +kernel, ?_⟩
  rw [(readParameters?_text_iff hfilter).2.mpr hnames]
  decide

/-- The rest of a name behind an ampersand is no parameter, or another one. -/
theorem readParameters?_text_ne : ¬∀ settings : List Query.Setting,
    (Jql.last? Jql.filter? settings).getD "" = "" →
      readParameters? (Query.empty.setAll settings).text =
        some (settings.flatMap contribution) := by
  intro h
  have hread := h [.values .component "R&D"] (by decide)
  revert hread
  decide

end ReleaseNotes.Parameters
