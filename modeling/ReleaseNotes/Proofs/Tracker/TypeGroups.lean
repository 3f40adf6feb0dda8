import Mathlib.Data.List.Sort
import Mathlib.Data.Prod.Lex
import Mathlib.Data.String.Basic
import ReleaseNotes.Proofs.Journal
import ReleaseNotes.Tracker.TypeMapping

/-!
Groups of issue types in a configuration. The groups are read one after the other, and what has been
assigned by then records which group lists which type. A type in two groups shows as soon as the
second one is read, so the groups fail exactly if a name is unknown or a type is in two of them, in
whatever order they come. Only then does the mapping change.
-/

namespace ReleaseNotes

namespace Category

theorem name_injective : Function.Injective name := by
  intro category other h
  have hnames := congrArg ofName? h
  rw [ofName?_name, ofName?_name] at hnames
  exact Option.some.inj hnames

theorem ofName?_eq_some_iff {text : String} {category : Category} :
    ofName? text = some category ↔ text = category.name := by
  constructor
  · intro h
    rw [ofName?] at h
    have hname := List.find?_some h
    exact (beq_iff_eq.mp hname).symm
  · rintro rfl
    exact ofName?_name category

theorem ofName?_eq_none_iff {text : String} :
    ofName? text = none ↔ text ∉ ["add", "fix", "update"] := by
  have hnames : ["add", "fix", "update"] = [add, fix, update].map name := rfl
  rw [ofName?, List.find?_eq_none, hnames, List.mem_map]
  simp only [beq_iff_eq, not_exists, not_and]

end Category

namespace TypeMapping

open Text

/-- A group of this name has a type among its items. -/
def Lists (groups : Groups) (name issueType : String) : Prop :=
  ∃ types, (name, types) ∈ groups ∧ issueType ∈ commaList types

def HasUnknownGroup (groups : Groups) : Prop :=
  ∃ group ∈ groups, group.1 ∉ ["add", "fix", "update"]

/-- A type is an item of two groups with different names. -/
def HasTypeInTwoGroups (groups : Groups) : Prop :=
  ∃ issueType name other, name ≠ other ∧ Lists groups name issueType ∧
    Lists groups other issueType

section Lists

variable {groups : Groups} {name issueType : String}

theorem not_lists_nil : ¬Lists [] name issueType := by
  rintro ⟨types, hmem, _⟩
  contradiction

theorem lists_append_singleton {group : String × String} :
    Lists (groups ++ [group]) name issueType ↔
      Lists groups name issueType ∨ group.1 = name ∧ issueType ∈ commaList group.2 := by
  constructor
  · rintro ⟨types, hmem, hlisted⟩
    rcases List.mem_append.mp hmem with hformer | hlast
    · exact Or.inl ⟨types, hformer, hlisted⟩
    · rw [List.mem_singleton] at hlast
      subst hlast
      exact Or.inr ⟨rfl, hlisted⟩
  · rintro (⟨types, hmem, hlisted⟩ | ⟨rfl, hlisted⟩)
    · exact ⟨types, List.mem_append_left _ hmem, hlisted⟩
    · exact ⟨group.2, List.mem_append_right _ (List.mem_singleton.mpr rfl), hlisted⟩

/-- Only which groups there are matters, and not where they stand. -/
theorem lists_of_subset {others : Groups} (hsubset : groups ⊆ others)
    (h : Lists groups name issueType) : Lists others name issueType := by
  obtain ⟨types, hmem, hlisted⟩ := h
  exact ⟨types, hsubset hmem, hlisted⟩

end Lists

section Assigning

/-- What has been assigned: every type once, with the category that it is listed for. -/
structure Records (listed : String → Category → Prop) (assigned : List (String × Category)) :
    Prop where
  nodup : (assigned.map Prod.fst).Nodup
  mem_iff : ∀ issueType category, (issueType, category) ∈ assigned ↔ listed issueType category

variable {listed : String → Category → Prop} {assigned next : List (String × Category)}
  {tracker issueType : String} {category : Category} {cause : Cause}

theorem records_nil : Records (fun _ _ => False) [] where
  nodup := List.nodup_nil
  mem_iff := by simp

theorem Records.congr {others : String → Category → Prop} (h : Records listed assigned)
    (hlisted : ∀ issueType category, listed issueType category ↔ others issueType category) :
    Records others assigned where
  nodup := h.nodup
  mem_iff issueType category := (h.mem_iff issueType category).trans (hlisted issueType category)

theorem notMem_of_lookup_eq_none (h : assigned.lookup issueType = none) :
    issueType ∉ assigned.map Prod.fst := by
  intro hmem
  obtain ⟨entry, hentry, rfl⟩ := List.mem_map.mp hmem
  have hne := List.lookup_eq_none_iff.mp h entry hentry
  simp at hne

/-- A type cannot be listed for two categories once it is recorded. -/
theorem Records.eq_of_listed (h : Records listed assigned) {other : Category}
    (hcategory : listed issueType category) (hother : listed issueType other) :
    category = other := by
  have hmem := (h.mem_iff issueType category).mpr hcategory
  have hmem' := (h.mem_iff issueType other).mpr hother
  have heq := List.inj_on_of_nodup_map h.nodup hmem hmem' rfl
  exact (Prod.mk.inj heq).2

/-- One more type is recorded. -/
theorem records_assign (h : Records listed assigned)
    (hnext : assign tracker category assigned issueType = .ok next) :
    Records (fun other kind => listed other kind ∨ other = issueType ∧ kind = category) next := by
  unfold assign at hnext
  split at hnext
  · rename_i hlookup
    obtain rfl := Except.ok.inj hnext
    have hnew := notMem_of_lookup_eq_none hlookup
    constructor
    · rw [List.map_append, List.map_singleton, List.nodup_append_comm]
      exact List.nodup_cons.mpr ⟨hnew, h.nodup⟩
    · intro other kind
      rw [List.mem_append, List.mem_singleton, h.mem_iff, Prod.mk.injEq]
  · rename_i former hlookup
    split at hnext
    · rename_i hformer
      subst hformer
      obtain rfl := Except.ok.inj hnext
      have hlisted := (h.mem_iff _ _).mp (mem_of_lookup_eq_some hlookup)
      refine h.congr fun other kind => ⟨Or.inl, ?_⟩
      rintro (hold | ⟨rfl, rfl⟩)
      · exact hold
      · exact hlisted
    · contradiction

/-- A type is refused because it is listed for another category already. -/
theorem exists_listed_of_assign_eq_error (h : Records listed assigned)
    (herror : assign tracker category assigned issueType = .error cause) :
    ∃ former, former ≠ category ∧ listed issueType former := by
  unfold assign at herror
  split at herror
  · contradiction
  · rename_i former hlookup
    split at herror
    · contradiction
    · rename_i hformer
      exact ⟨former, hformer, (h.mem_iff _ _).mp (mem_of_lookup_eq_some hlookup)⟩

def RecordsItems (listed : String → Category → Prop) (category : Category) (items : List String)
    (assigned : List (String × Category)) : Prop :=
  Records (fun issueType kind => listed issueType kind ∨ issueType ∈ items ∧ kind = category)
    assigned

theorem recordsItems_nil_iff :
    RecordsItems listed category [] assigned ↔ Records listed assigned := by
  constructor
  · intro h
    exact h.congr (by simp)
  · intro h
    exact h.congr (by simp)

/-- The step for the items of a group: one more type is recorded for its category. -/
theorem recordsItems_step (done : List String) (issueType : String)
    (assigned next : List (String × Category)) (h : RecordsItems listed category done assigned)
    (hnext : assign tracker category assigned issueType = .ok next) :
    RecordsItems listed category (done ++ [issueType]) next := by
  refine (records_assign h hnext).congr fun other kind => ?_
  rw [List.mem_append, List.mem_singleton, or_and_right, or_assoc]

structure RecordsGroups (groups : Groups) (assigned : List (String × Category)) : Prop where
  records : Records (fun issueType category => Lists groups category.name issueType) assigned
  known : ∀ group ∈ groups, ∃ category : Category, group.1 = category.name

theorem recordsGroups_nil : RecordsGroups [] [] where
  records := records_nil.congr fun _ _ => ⟨False.elim, not_lists_nil⟩
  known := by simp

/-- The step for groups: the types of one more group are recorded. -/
theorem recordsGroups_step (done : Groups) (group : String × String)
    (assigned next : List (String × Category)) (h : RecordsGroups done assigned)
    (hnext : assignGroup tracker assigned group = .ok next) :
    RecordsGroups (done ++ [group]) next := by
  unfold assignGroup at hnext
  split at hnext
  · contradiction
  · rename_i category hname
    rw [Category.ofName?_eq_some_iff] at hname
    have hitems : RecordsItems _ category (commaList group.2) next :=
      kept_of_foldlM_eq_ok recordsItems_step (recordsItems_nil_iff.mpr h.records) hnext
    constructor
    · refine hitems.congr fun issueType kind => ?_
      rw [lists_append_singleton, hname, Category.name_injective.eq_iff]
      tauto
    · intro other hother
      rcases List.mem_append.mp hother with hformer | hlast
      · exact h.known other hformer
      · rw [List.mem_singleton.mp hlast]
        exact ⟨category, hname⟩

/-- What is assigned in the end are the types of all groups, each with its category. -/
theorem recordsGroups_of_assignments {groups : Groups}
    (h : assignments tracker groups = .ok assigned) : RecordsGroups (inOrder groups) assigned :=
  kept_of_foldlM_eq_ok recordsGroups_step recordsGroups_nil h

/-- A group that is refused has an unknown name, or lists a type that a former group lists as
well. -/
theorem refused_of_assignGroup_eq_error {done : Groups} {group : String × String}
    (h : RecordsGroups done assigned)
    (herror : assignGroup tracker assigned group = .error cause) :
    HasUnknownGroup (done ++ [group]) ∨ HasTypeInTwoGroups (done ++ [group]) := by
  have hmem : group ∈ done ++ [group] := List.mem_append_right _ (List.mem_singleton.mpr rfl)
  unfold assignGroup at herror
  split at herror
  · rename_i hname
    exact Or.inl ⟨group, hmem, Category.ofName?_eq_none_iff.mp hname⟩
  · rename_i category hname
    rw [Category.ofName?_eq_some_iff] at hname
    obtain ⟨before, issueType, after, former, hitems, hformer, hrefused⟩ :=
      exists_of_foldlM_eq_error recordsItems_step (recordsItems_nil_iff.mpr h.records) herror
    obtain ⟨other, hne, hlisted⟩ := exists_listed_of_assign_eq_error hformer hrefused
    have hother : Lists done other.name issueType := by
      rcases hlisted with hlisted | ⟨_, heq⟩
      · exact hlisted
      · exact absurd heq hne
    have hitem : issueType ∈ commaList group.2 := by
      rw [hitems]
      exact List.mem_append_right _ List.mem_cons_self
    refine Or.inr ⟨issueType, other.name, category.name, Category.name_injective.ne hne, ?_, ?_⟩
    · exact lists_of_subset (List.subset_append_left _ _) hother
    · exact lists_append_singleton.mpr (Or.inr ⟨hname, hitem⟩)

theorem refused_of_subset {groups others : Groups} (hsubset : groups ⊆ others)
    (h : HasUnknownGroup groups ∨ HasTypeInTwoGroups groups) :
    HasUnknownGroup others ∨ HasTypeInTwoGroups others := by
  rcases h with ⟨group, hgroup, hname⟩ | ⟨issueType, name, other, hne, hfirst, hsecond⟩
  · exact Or.inl ⟨group, hsubset hgroup, hname⟩
  · exact Or.inr ⟨issueType, name, other, hne, lists_of_subset hsubset hfirst,
      lists_of_subset hsubset hsecond⟩

theorem mem_inOrder {groups : Groups} {group : String × String} :
    group ∈ inOrder groups ↔ group ∈ groups :=
  List.mem_mergeSort

theorem lists_inOrder {groups : Groups} {name issueType : String} :
    Lists (inOrder groups) name issueType ↔ Lists groups name issueType :=
  ⟨lists_of_subset fun _ => mem_inOrder.mp, lists_of_subset fun _ => mem_inOrder.mpr⟩

theorem refused_of_assignments_eq_error {groups : Groups}
    (h : assignments tracker groups = .error cause) :
    HasUnknownGroup groups ∨ HasTypeInTwoGroups groups := by
  obtain ⟨before, group, after, former, heq, hformer, hrefused⟩ :=
    exists_of_foldlM_eq_error recordsGroups_step recordsGroups_nil h
  have hsubset : before ++ [group] ⊆ groups := by
    intro other hother
    rw [← mem_inOrder, heq, ← List.singleton_append, ← List.append_assoc]
    exact List.mem_append_left _ hother
  exact refused_of_subset hsubset (refused_of_assignGroup_eq_error hformer hrefused)

/-- Groups that have been assigned have known names, and no type is in two of them. -/
theorem not_refused_of_assignments_eq_ok {groups : Groups}
    (h : assignments tracker groups = .ok assigned) :
    ¬(HasUnknownGroup groups ∨ HasTypeInTwoGroups groups) := by
  have hrecords := recordsGroups_of_assignments h
  have hknown : ∀ group ∈ groups, ∃ category : Category, group.1 = category.name :=
    fun group hgroup => hrecords.known group (mem_inOrder.mpr hgroup)
  rintro (⟨group, hgroup, hname⟩ | ⟨issueType, name, other, hne, hfirst, hsecond⟩)
  · obtain ⟨category, hcategory⟩ := hknown group hgroup
    have hnone := Category.ofName?_eq_none_iff.mpr hname
    rw [Category.ofName?_eq_some_iff.mpr hcategory] at hnone
    contradiction
  · have hcategory : ∃ category : Category, name = category.name := by
      obtain ⟨types, hmem, _⟩ := hfirst
      exact hknown _ hmem
    have hcategory' : ∃ category : Category, other = category.name := by
      obtain ⟨types, hmem, _⟩ := hsecond
      exact hknown _ hmem
    obtain ⟨category, rfl⟩ := hcategory
    obtain ⟨category', rfl⟩ := hcategory'
    have heq := hrecords.records.eq_of_listed (lists_inOrder.mpr hfirst) (lists_inOrder.mpr hsecond)
    exact hne (congrArg Category.name heq)

end Assigning

section Order

variable {groups others : Groups}

theorem pairwise_inOrder (groups : Groups) :
    (inOrder groups).Pairwise fun left right => toLex left ≤ toLex right := by
  have htrans : ∀ a b c : String × String,
      decide (toLex a ≤ toLex b) = true → decide (toLex b ≤ toLex c) = true →
        decide (toLex a ≤ toLex c) = true := by
    intro a b c hab hbc
    exact decide_eq_true (le_trans (of_decide_eq_true hab) (of_decide_eq_true hbc))
  have htotal : ∀ a b : String × String,
      (decide (toLex a ≤ toLex b) || decide (toLex b ≤ toLex a)) = true := by
    intro a b
    rw [Bool.or_eq_true, decide_eq_true_iff, decide_eq_true_iff]
    exact le_total (toLex a) (toLex b)
  have hsorted := List.pairwise_mergeSort htrans htotal groups
  have heq : groups.mergeSort (fun a b => decide (toLex a ≤ toLex b)) = inOrder groups := by
    unfold inOrder
    simp only [Prod.Lex.toLex_le_toLex]
  rw [heq] at hsorted
  exact hsorted.imp of_decide_eq_true

/-- The order of groups by their names does not depend on the order in which they are given. -/
theorem inOrder_eq_of_perm (h : groups.Perm others) : inOrder groups = inOrder others := by
  have hperm : (inOrder groups).Perm (inOrder others) :=
    ((List.mergeSort_perm _ _).trans h).trans (List.mergeSort_perm _ _).symm
  refine hperm.eq_of_pairwise ?_ (pairwise_inOrder groups) (pairwise_inOrder others)
  intro a b _ _ hab hba
  exact toLex.injective (le_antisymm hab hba)

end Order

section Inserting

variable {assigned : List (String × Category)} {issueType : String}

def insertAll (mapping : TypeMapping) (assigned : List (String × Category)) : TypeMapping :=
  assigned.foldl (fun mapping entry => mapping.insert entry.1 entry.2) mapping

theorem lookup_insertAll_of_notMem (mapping : TypeMapping)
    (h : issueType ∉ assigned.map Prod.fst) :
    (mapping.insertAll assigned).lookup issueType = mapping.lookup issueType := by
  induction assigned generalizing mapping with
  | nil => rfl
  | cons entry assigned ih =>
    rw [List.map_cons, List.mem_cons, not_or] at h
    rw [insertAll, List.foldl_cons, ← insertAll, ih _ h.2, lookup_insert, if_neg h.1]

/-- An assigned type has its new category afterwards, as no later entry is for the same type. -/
theorem lookup_insertAll_of_mem (mapping : TypeMapping) {category : Category}
    (hnodup : (assigned.map Prod.fst).Nodup) (h : (issueType, category) ∈ assigned) :
    (mapping.insertAll assigned).lookup issueType = some category := by
  induction assigned generalizing mapping with
  | nil => contradiction
  | cons entry assigned ih =>
    rw [List.map_cons, List.nodup_cons] at hnodup
    rw [insertAll, List.foldl_cons, ← insertAll]
    rcases List.mem_cons.mp h with rfl | hmem
    · rw [lookup_insertAll_of_notMem _ hnodup.1, lookup_insert, if_pos rfl]
    · exact ih _ hnodup.2 hmem

end Inserting

/-- What comes of configuring a mapping with groups of types. The groups fail exactly if there is an
unknown group or a type in two groups, and nothing changes then. Else every listed type has the
category of its group, and every other type has the one that it had. -/
structure IsExact (mapping : TypeMapping) (groups : Groups)
    (result : TypeMapping × Except Cause Unit) : Prop where
  fails_iff : (∃ cause, result.2 = .error cause) ↔
    HasUnknownGroup groups ∨ HasTypeInTwoGroups groups
  unchanged : ∀ cause, result.2 = .error cause → result.1 = mapping
  lookup_listed : result.2 = .ok () → ∀ category issueType,
    Lists groups category.name issueType → result.1.lookup issueType = some category
  lookup_unlisted : result.2 = .ok () → ∀ issueType,
    (∀ name, ¬Lists groups name issueType) → result.1.lookup issueType = mapping.lookup issueType

variable {mapping : TypeMapping} {groups : Groups}

theorem configure_of_assignments_eq_error {cause : Cause}
    (h : assignments mapping.tracker groups = .error cause) :
    mapping.configure groups = (mapping, .error cause) := by
  rw [configure, h]

theorem configure_of_assignments_eq_ok {assigned : List (String × Category)}
    (h : assignments mapping.tracker groups = .ok assigned) :
    mapping.configure groups = (mapping.insertAll assigned, .ok ()) := by
  rw [configure, h, insertAll]

/-- Configuring a mapping is all or nothing, and does not depend on the order of the groups. -/
theorem configure_isExact (mapping : TypeMapping) (groups : Groups) :
    IsExact mapping groups (mapping.configure groups) ∧
      ∀ others, others.Perm groups → mapping.configure others = mapping.configure groups := by
  refine ⟨?_, fun others hperm => ?_⟩
  · cases h : assignments mapping.tracker groups with
    | error cause =>
      rw [configure_of_assignments_eq_error h]
      refine ⟨⟨fun _ => refused_of_assignments_eq_error h, fun _ => ⟨cause, rfl⟩⟩, ?_, ?_, ?_⟩
      · exact fun _ _ => rfl
      · exact nofun
      · exact nofun
    | ok assigned =>
      rw [configure_of_assignments_eq_ok h]
      have hrecords := (recordsGroups_of_assignments h).records
      have haccepted := not_refused_of_assignments_eq_ok h
      refine ⟨⟨nofun, fun hrefused => absurd hrefused haccepted⟩, nofun, ?_, ?_⟩
      · intro _ category issueType hlisted
        have hmem := (hrecords.mem_iff issueType category).mpr (lists_inOrder.mpr hlisted)
        exact lookup_insertAll_of_mem mapping hrecords.nodup hmem
      · intro _ issueType hunlisted
        apply lookup_insertAll_of_notMem
        intro hmem
        obtain ⟨⟨_, category⟩, hentry, rfl⟩ := List.mem_map.mp hmem
        have hlisted := (hrecords.mem_iff _ category).mp hentry
        exact hunlisted category.name (lists_inOrder.mp hlisted)
  · rw [configure, configure, assignments, assignments, inOrder_eq_of_perm hperm]

def sampleGroups : Groups := [("update", " Bug ,,Chore"), ("add", "Epic, Story")]

theorem lists_sampleGroups {name issueType : String} : Lists sampleGroups name issueType ↔
    name = "update" ∧ issueType ∈ ["Bug", "Chore"] ∨
      name = "add" ∧ issueType ∈ ["Epic", "Story"] := by
  have hupdate : commaList " Bug ,,Chore" = ["Bug", "Chore"] := by decide +kernel
  have hadd : commaList "Epic, Story" = ["Epic", "Story"] := by decide +kernel
  have hgroups : sampleGroups = [] ++ [("update", " Bug ,,Chore")] ++ [("add", "Epic, Story")] :=
    rfl
  rw [hgroups, lists_append_singleton, lists_append_singleton, hupdate, hadd, eq_comm (b := name),
    eq_comm (b := name)]
  simp only [not_lists_nil, false_or]

theorem configure_isExact_sample :
    (jira.configure sampleGroups).2 = .ok () ∧
      (jira.configure sampleGroups).1.lookup "Story" = some .add ∧
      (jira.configure sampleGroups).1.lookup "Bug" = some .update ∧
      (jira.configure sampleGroups).1.lookup "Wish" = jira.lookup "Wish" := by
  have hexact := (configure_isExact jira sampleGroups).1
  have hok : (jira.configure sampleGroups).2 = .ok () := by
    cases houtcome : (jira.configure sampleGroups).2 with
    | ok _ => rfl
    | error cause =>
      rcases hexact.fails_iff.mp ⟨cause, houtcome⟩ with hunknown | ⟨issueType, name, other, h⟩
      · exact absurd hunknown (by simp [HasUnknownGroup, sampleGroups])
      · have hdisjoint : List.Disjoint ["Bug", "Chore"] ["Epic", "Story"] := by simp
        simp only [lists_sampleGroups] at h
        obtain ⟨hne, ⟨rfl, hfirst⟩ | ⟨rfl, hfirst⟩, ⟨rfl, hsecond⟩ | ⟨rfl, hsecond⟩⟩ := h
        · exact absurd rfl hne
        · exact (hdisjoint hfirst hsecond).elim
        · exact (hdisjoint hsecond hfirst).elim
        · exact absurd rfl hne
  refine ⟨hok, hexact.lookup_listed hok .add "Story" ?_,
    hexact.lookup_listed hok .update "Bug" ?_, hexact.lookup_unlisted hok "Wish" ?_⟩
  · exact lists_sampleGroups.mpr (Or.inr ⟨rfl, by simp⟩)
  · exact lists_sampleGroups.mpr (Or.inl ⟨rfl, by simp⟩)
  · simp [lists_sampleGroups]

end TypeMapping

end ReleaseNotes
