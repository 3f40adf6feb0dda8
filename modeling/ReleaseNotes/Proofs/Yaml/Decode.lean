import ReleaseNotes.Proofs.Traversal
import ReleaseNotes.Yaml.Decode

/-!
What a decoded value is made of. Every item of a list was decoded by the decoder of the items, and
every record comes from some fields. So the records in a list that is a field of a record come from
records that stand in this list.
-/

namespace ReleaseNotes.Yaml.Decoder

variable {α : Type}

def IsItem (document : Document) (list item : Node) : Prop :=
  ∃ anchor tag items, document.resolve list = some (.sequence anchor tag items) ∧ item ∈ items

/-- The fields of a record that stands in a list, which is a field of another record. -/
def Fields.IsEntry (outer : Fields) (name : String) (inner : Fields) : Prop :=
  inner.document = outer.document ∧ ∃ list node, outer.given.lookup name = some list ∧
    IsItem outer.document list node ∧ pairs outer.document node = some inner.given

def Fields.IsTop (fields : Fields) (source : String) : Prop :=
  Document.ofText? source = some fields.document ∧
    pairs fields.document (fields.document.root.getD Reader.emptyScalar) = some fields.given

/-- Each item of a decoded list was decoded from an item of the document. -/
theorem exists_of_list {decoder : Decoder α} {document : Document} {node : Node} {items : List α}
    (h : list decoder document node = some items) {item : α} (hitem : item ∈ items) :
    ∃ inner, IsItem document node inner ∧ decoder document inner = some item := by
  simp only [list, Option.bind_eq_bind, Option.bind_eq_some_iff] at h
  obtain ⟨resolved, hresolved, h⟩ := h
  split at h
  · obtain ⟨inner, hmem, hinner⟩ := exists_of_mapM_eq_some h hitem
    exact ⟨inner, ⟨_, _, _, hresolved, hmem⟩, hinner⟩
  · split at h
    · cases h
      simp at hitem
    · contradiction

theorem exists_of_record {names : List String} {read : Fields → Option α} {document : Document}
    {node : Node} {value : α} (h : record names read document node = some value) :
    ∃ given, pairs document node = some given ∧ read ⟨document, given⟩ = some value := by
  simp only [record, Option.bind_eq_bind, Option.bind_eq_some_iff] at h
  obtain ⟨given, hgiven, h⟩ := h
  split at h
  · exact ⟨given, hgiven, h⟩
  · contradiction

theorem exists_of_withDefault? {fields : Fields} {name : String} {default value : α}
    {decoder : Decoder α} (h : fields.withDefault? name default decoder = some value) :
    value = default ∨ ∃ node, fields.given.lookup name = some node ∧
      decoder fields.document node = some value := by
  unfold Fields.withDefault? at h
  split at h
  · rename_i node hnode
    exact Or.inr ⟨node, hnode, h⟩
  · exact Or.inl (Option.some.inj h).symm

/-- Each of the records in an optional list was read from an entry, as the default is empty. -/
theorem exists_entry_of_withDefault? {fields : Fields} {name : String} {names : List String}
    {read : Fields → Option α} {values : List α}
    (h : fields.withDefault? name [] (list (record names read)) = some values) {value : α}
    (hvalue : value ∈ values) : ∃ inner, fields.IsEntry name inner ∧ read inner = some value := by
  rcases exists_of_withDefault? h with rfl | ⟨node, hnode, hlist⟩
  · contradiction
  · obtain ⟨item, hitem, hrecord⟩ := exists_of_list hlist hvalue
    obtain ⟨given, hgiven, hread⟩ := exists_of_record hrecord
    exact ⟨⟨fields.document, given⟩, ⟨rfl, node, item, hnode, hitem, hgiven⟩, hread⟩

theorem exists_of_decode {decoder : Decoder α} {source : String} {value : α}
    (h : decode decoder source = .ok value) :
    ∃ document, Document.ofText? source = some document ∧
      decoder document (document.root.getD Reader.emptyScalar) = some value := by
  simp only [decode, Option.bind_eq_bind, Option.bind_none] at h
  split at h
  · rename_i found hfound
    cases h
    rw [Option.bind_eq_some_iff] at hfound
    obtain ⟨document, hdocument, hfound⟩ := hfound
    split at hfound
    · contradiction
    · exact ⟨document, hdocument, hfound⟩
  · contradiction

/-- A decoded file was read from the record that is the whole document. -/
theorem exists_top_of_decode {names : List String} {read : Fields → Option α} {source : String}
    {value : α} (h : decode (record names read) source = .ok value) :
    ∃ top : Fields, top.IsTop source ∧ read top = some value := by
  obtain ⟨document, hdocument, hrecord⟩ := exists_of_decode h
  obtain ⟨given, hgiven, hread⟩ := exists_of_record hrecord
  exact ⟨⟨document, given⟩, ⟨hdocument, hgiven⟩, hread⟩

end ReleaseNotes.Yaml.Decoder
