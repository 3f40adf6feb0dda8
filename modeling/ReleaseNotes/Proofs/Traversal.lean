import Mathlib.Data.List.Forall2
import Mathlib.Data.List.Nodup

/-!
Going through a list with a step that may fail. The whole list succeeds exactly if every item does,
and then it has a result for each item, in order. Looking up a key in a list of entries finds one of
them, and if the keys are distinct then every one of them is found.
-/

namespace ReleaseNotes

variable {α β : Type}

section Options

variable {γ : Type}

theorem exists_of_forall₂ {R : α → β → Prop} {items : List α} {values : List β}
    (h : List.Forall₂ R items values) {value : β} (hvalue : value ∈ values) :
    ∃ item ∈ items, R item value := by
  induction h with
  | nil => contradiction
  | @cons item _ _ _ hfirst _ ih =>
    rcases List.mem_cons.mp hvalue with rfl | hmem
    · exact ⟨item, List.mem_cons_self, hfirst⟩
    · obtain ⟨other, hother, hrel⟩ := ih hmem
      exact ⟨other, List.mem_cons_of_mem _ hother, hrel⟩

theorem exists_forall₂_iff {R : α → β → Prop} {items : List α} :
    (∃ values, List.Forall₂ R items values) ↔ ∀ item ∈ items, ∃ value, R item value := by
  induction items with
  | nil => simp
  | cons item items ih =>
    rw [List.forall_mem_cons, ← ih]
    constructor
    · rintro ⟨_, h⟩
      obtain ⟨value, values, hvalue, hvalues, rfl⟩ := List.forall₂_cons_left_iff.mp h
      exact ⟨⟨value, hvalue⟩, values, hvalues⟩
    · rintro ⟨⟨value, hvalue⟩, values, hvalues⟩
      exact ⟨value :: values, List.Forall₂.cons hvalue hvalues⟩

theorem mapM_eq_some_iff {read : α → Option β} {items : List α} {values : List β} :
    items.mapM read = some values ↔
      List.Forall₂ (fun item value => read item = some value) items values := by
  induction items generalizing values with
  | nil =>
    rw [List.mapM_nil, List.forall₂_nil_left_iff]
    exact ⟨fun h => (Option.some.inj h).symm, fun h => congrArg some h.symm⟩
  | cons item items ih =>
    rw [List.mapM_cons, List.forall₂_cons_left_iff]
    simp only [Option.bind_eq_bind, Option.bind_eq_some_iff, ih]
    constructor
    · rintro ⟨value, hvalue, rest, hrest, heq⟩
      exact ⟨value, rest, hvalue, hrest, (Option.some.inj heq).symm⟩
    · rintro ⟨value, rest, hvalue, hrest, rfl⟩
      exact ⟨value, hvalue, rest, hrest, rfl⟩

theorem exists_of_mapM_eq_some {read : α → Option β} {items : List α} {values : List β}
    (h : items.mapM read = some values) {value : β} (hvalue : value ∈ values) :
    ∃ item ∈ items, read item = some value :=
  exists_of_forall₂ (mapM_eq_some_iff.mp h) hvalue

/-- Reading what was written one by one succeeds if each can be read. -/
theorem mapM_map_eq_some {write : α → β} {read : β → Option γ} {result : α → γ} {items : List α}
    (h : ∀ item ∈ items, read (write item) = some (result item)) :
    (items.map write).mapM read = some (items.map result) := by
  rw [mapM_eq_some_iff, List.forall₂_map_left_iff, List.forall₂_map_right_iff]
  exact List.forall₂_same.mpr h

end Options

section Exceptions

variable {ε : Type}

theorem bind_eq_ok_iff {first : Except ε α} {next : α → Except ε β} {result : β} :
    first >>= next = .ok result ↔ ∃ value, first = .ok value ∧ next value = .ok result := by
  cases first with
  | error cause => simp [Bind.bind, Except.bind]
  | ok value => simp [Bind.bind, Except.bind]

theorem bind_eq_error_iff {first : Except ε α} {next : α → Except ε β} {cause : ε} :
    first >>= next = .error cause ↔
      first = .error cause ∨ ∃ value, first = .ok value ∧ next value = .error cause := by
  cases first with
  | error cause => simp [Bind.bind, Except.bind]
  | ok value => simp [Bind.bind, Except.bind]

theorem mapM_eq_ok_iff {f : α → Except ε β} {items : List α} {results : List β} :
    items.mapM f = .ok results ↔
      List.Forall₂ (fun item result => f item = .ok result) items results := by
  induction items generalizing results with
  | nil =>
    rw [List.mapM_nil, List.forall₂_nil_left_iff]
    exact ⟨fun h => (Except.ok.inj h).symm, fun h => congrArg Except.ok h.symm⟩
  | cons item items ih =>
    rw [List.mapM_cons, List.forall₂_cons_left_iff]
    simp only [bind_eq_ok_iff, ih]
    constructor
    · rintro ⟨result, hresult, rest, hrest, heq⟩
      exact ⟨result, rest, hresult, hrest, (Except.ok.inj heq).symm⟩
    · rintro ⟨result, rest, hresult, hrest, rfl⟩
      exact ⟨result, hresult, rest, hrest, rfl⟩

/-- Going through a list fails at the first item that fails. -/
theorem mapM_eq_error_iff {f : α → Except ε β} {items : List α} {cause : ε} :
    items.mapM f = .error cause ↔ ∃ before item after, items = before ++ item :: after ∧
      (∀ other ∈ before, ∃ result, f other = .ok result) ∧ f item = .error cause := by
  induction items with
  | nil => exact ⟨nofun, fun ⟨before, item, after, h, _⟩ => by simp at h⟩
  | cons first items ih =>
    rw [List.mapM_cons, bind_eq_error_iff]
    simp only [bind_eq_error_iff, ih]
    constructor
    · rintro (hfirst | ⟨result, hresult, hrest⟩)
      · exact ⟨[], first, items, rfl, nofun, hfirst⟩
      · obtain ⟨before, item, after, rfl, hbefore, hitem⟩ | ⟨_, _, hpure⟩ := hrest
        · refine ⟨first :: before, item, after, rfl, ?_, hitem⟩
          exact List.forall_mem_cons.mpr ⟨⟨result, hresult⟩, hbefore⟩
        · contradiction
    · rintro ⟨before, item, after, hsplit, hbefore, hitem⟩
      cases before with
      | nil =>
        obtain ⟨rfl, _⟩ := List.cons.inj hsplit
        exact Or.inl hitem
      | cons other before =>
        obtain ⟨rfl, rfl⟩ := List.cons.inj hsplit
        obtain ⟨⟨result, hresult⟩, hrest⟩ := List.forall_mem_cons.mp hbefore
        exact Or.inr ⟨result, hresult, Or.inl ⟨before, item, after, rfl, hrest, hitem⟩⟩

theorem exists_mapM_eq_ok_iff {f : α → Except ε β} {items : List α} :
    (∃ results, items.mapM f = .ok results) ↔ ∀ item ∈ items, ∃ result, f item = .ok result := by
  simp only [mapM_eq_ok_iff]
  exact exists_forall₂_iff

theorem mapM_congr {f g : α → Except ε β} {items : List α} (h : ∀ item ∈ items, f item = g item) :
    items.mapM f = items.mapM g := by
  induction items with
  | nil => rfl
  | cons item items ih =>
    obtain ⟨hitem, hitems⟩ := List.forall_mem_cons.mp h
    rw [List.mapM_cons, List.mapM_cons, hitem, ih hitems]

/-- Two traversals with the same results agree on every item. -/
theorem eq_of_mapM_eq_ok {f g : α → Except ε β} {items : List α} {results : List β}
    (hf : items.mapM f = .ok results) (hg : items.mapM g = .ok results) {item : α}
    (hitem : item ∈ items) : f item = g item := by
  rw [mapM_eq_ok_iff] at hf hg
  induction hf with
  | nil => contradiction
  | @cons first result rest results hresult _ ih =>
    obtain ⟨hother, hrest⟩ := List.forall₂_cons.mp hg
    rcases List.mem_cons.mp hitem with rfl | hmem
    · exact hresult.trans hother.symm
    · exact ih hrest hmem

section Fold

variable {step : β → α → Except ε β} {kept : List α → β → Prop}
  (hstep : ∀ done item value next, kept done value → step value item = .ok next →
    kept (done ++ [item]) next)

include hstep

/-- What every step keeps holds after a fold that succeeds. -/
theorem kept_of_foldlM_eq_ok {done items : List α} {value result : β} (hkept : kept done value)
    (h : items.foldlM step value = .ok result) : kept (done ++ items) result := by
  induction items generalizing done value with
  | nil =>
    obtain rfl := Except.ok.inj h
    rwa [List.append_nil]
  | cons item items ih =>
    rw [List.foldlM_cons, bind_eq_ok_iff] at h
    obtain ⟨next, hnext, hrest⟩ := h
    have hlater := ih (hstep done item value next hkept hnext) hrest
    rwa [List.append_assoc] at hlater

/-- A fold that fails does so at one of its items, and the steps before it have succeeded. -/
theorem exists_of_foldlM_eq_error {done items : List α} {value : β} {cause : ε}
    (hkept : kept done value) (h : items.foldlM step value = .error cause) :
    ∃ before item after former, items = before ++ item :: after ∧
      kept (done ++ before) former ∧ step former item = .error cause := by
  induction items generalizing done value with
  | nil => contradiction
  | cons item items ih =>
    rw [List.foldlM_cons, bind_eq_error_iff] at h
    rcases h with hfirst | ⟨next, hnext, hrest⟩
    · refine ⟨[], item, items, value, rfl, ?_, hfirst⟩
      rwa [List.append_nil]
    · obtain ⟨before, last, after, former, rfl, hformer, hlast⟩ :=
        ih (hstep done item value next hkept hnext) hrest
      refine ⟨item :: before, last, after, former, rfl, ?_, hlast⟩
      rwa [List.append_assoc] at hformer

end Fold

end Exceptions

section Lookup

variable [BEq α] [LawfulBEq α] {entries : List (α × β)} {key : α} {value : β}

theorem mem_of_lookup_eq_some (h : entries.lookup key = some value) : (key, value) ∈ entries := by
  obtain ⟨before, after, rfl, _⟩ := List.lookup_eq_some_iff.mp h
  exact List.mem_append_right before List.mem_cons_self

/-- With distinct keys, looking one up finds its entry, wherever it stands. -/
theorem lookup_eq_some_iff_mem (h : (entries.map Prod.fst).Nodup) :
    entries.lookup key = some value ↔ (key, value) ∈ entries := by
  refine ⟨mem_of_lookup_eq_some, fun hmem => ?_⟩
  obtain ⟨before, after, rfl⟩ := List.append_of_mem hmem
  refine List.lookup_eq_some_iff.mpr ⟨before, after, rfl, fun entry hentry => ?_⟩
  rw [List.map_append, List.nodup_append] at h
  have hne := h.2.2 entry.1 (List.mem_map_of_mem hentry) key (by simp)
  simpa using hne.symm

end Lookup

end ReleaseNotes
