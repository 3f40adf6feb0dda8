import ReleaseNotes.Proofs.Release.Attaching

/-!
Collecting the lists of several systems and modules. Merging one more list adds its actions at the
end of each version, and attaching one more module adds a component; what else is known of a version
stays as the first list has it. What was collected for a version hence is read off the lists in
order, whichever of them brought the version in.
-/

namespace ReleaseNotes.Release

def firstOf (listings : List (List Release)) (version : String) : Option Release :=
  listings.findSome? fun listing => find? listing version

@[simp] theorem firstOf_nil (version : String) : firstOf [] version = none := rfl

@[simp] theorem firstOf_cons (listing : List Release) (listings : List (List Release))
    (version : String) :
    firstOf (listing :: listings) version =
      (find? listing version).or (firstOf listings version) := by
  rw [firstOf, List.findSome?_cons]
  cases find? listing version with
  | some release => rfl
  | none => rfl

theorem firstOf_isSome_iff {listings : List (List Release)} {version : String} :
    (firstOf listings version).isSome ↔ ∃ listing ∈ listings, version ∈ versions listing := by
  simp only [firstOf, List.findSome?_isSome_iff, find?_isSome_iff]

section Systems

def mergeAll (systems : List (List Release)) : List Release :=
  systems.foldl mergeLists []

theorem ownActions_mergeLists (first second : List Release) (version : String) :
    ownActions (mergeLists first second) version =
      ownActions first version ++ ownActions second version := by
  unfold ownActions
  rw [find?_mergeLists]
  cases h : find? first version with
  | some release =>
    rw [Option.map_some, Option.some_or, Option.elim_some, complete_eq, version_of_find? h]
    rfl
  | none => rfl

/-- Merging two of the lists changes nothing but actions in what comes first. -/
theorem map_firstOf_mergeLists (first second : List Release) (listings : List (List Release))
    (version : String) (actions : List Action) :
    ((firstOf (mergeLists first second :: listings) version).map
        fun release => { release with actions := actions }) =
      (firstOf (first :: second :: listings) version).map
        fun release => { release with actions := actions } := by
  simp only [firstOf_cons, find?_mergeLists]
  cases find? first version with
  | some release => simp only [Option.map_some, Option.some_or, complete_eq]
  | none => rfl

/-- What was merged so far counts as one more list in front of those to come. -/
theorem find?_foldl_mergeLists (first : List Release) (listings : List (List Release))
    (version : String) :
    find? (listings.foldl mergeLists first) version =
      (firstOf (first :: listings) version).map fun release =>
        { release with
          actions := (first :: listings).flatMap fun listing => ownActions listing version } := by
  induction listings generalizing first with
  | nil =>
    rw [List.foldl_nil, firstOf_cons, firstOf_nil, Option.or_none, List.flatMap_singleton]
    cases h : find? first version with
    | some release => simp [ownActions, h]
    | none => rfl
  | cons second listings ih =>
    rw [List.foldl_cons, ih, map_firstOf_mergeLists]
    simp only [List.flatMap_cons, ownActions_mergeLists, List.append_assoc]

/-- A version of merged lists is as the first list has it, with the own actions of all of them. -/
theorem find?_mergeAll (systems : List (List Release)) (version : String) :
    find? (mergeAll systems) version =
      (firstOf systems version).map fun release =>
        { release with actions := systems.flatMap fun listing => ownActions listing version } :=
  find?_foldl_mergeLists [] systems version

theorem nodup_versions_foldl_mergeLists {first : List Release} {listings : List (List Release)}
    (hfirst : (versions first).Nodup)
    (hlistings : ∀ listing ∈ listings, (versions listing).Nodup) :
    (versions (listings.foldl mergeLists first)).Nodup := by
  induction listings generalizing first with
  | nil => exact hfirst
  | cons second listings ih =>
    obtain ⟨hsecond, hrest⟩ := List.forall_mem_cons.mp hlistings
    exact ih ((nodup_versions_mergeLists_iff first second).mpr ⟨hfirst, hsecond.filter _⟩) hrest

end Systems

section Modules

def attachAll (parent : List Release) (modules : List (String × List Release)) : List Release :=
  modules.foldl (fun parent entry => mergeModule parent entry.1 entry.2) parent

def bare (own : Release) : Release :=
  ⟨own.version, own.date, none, [], []⟩

def componentsFor (modules : List (String × List Release)) (version : String) : List Component :=
  modules.filterMap fun entry => component? entry.1 entry.2 version

/-- A version of releases with modules is as the project has it, or else as the first module has its
date, with a component for each module that has the version. -/
theorem find?_attachAll (parent : List Release) (modules : List (String × List Release))
    (version : String) :
    find? (attachAll parent modules) version =
      ((find? parent version).or ((firstOf (modules.map Prod.snd) version).map bare)).map
        fun release => { release with
          components := release.components ++ componentsFor modules version } := by
  induction modules generalizing parent with
  | nil => simp [attachAll, componentsFor]
  | cons entry modules ih =>
    obtain ⟨name, child⟩ := entry
    have hstep : attachAll parent ((name, child) :: modules) =
        attachAll (mergeModule parent name child) modules := rfl
    rw [hstep, ih, find?_mergeModule, List.map_cons, firstOf_cons]
    cases hparent : find? parent version with
    | some release =>
      simp only [Option.map_some, Option.some_or, attach_eq, version_of_find? hparent]
      cases hchild : component? name child version with
      | some component => simp [componentsFor, hchild]
      | none => simp [componentsFor, hchild]
    | none =>
      cases hchild : find? child version with
      | some own => simp [componentsFor, component?, hchild, ofModule, bare]
      | none => simp [componentsFor, component?, hchild]

theorem nodup_versions_attachAll {parent : List Release} {modules : List (String × List Release)}
    (hparent : (versions parent).Nodup)
    (hmodules : ∀ entry ∈ modules, (versions entry.2).Nodup) :
    (versions (attachAll parent modules)).Nodup := by
  induction modules generalizing parent with
  | nil => exact hparent
  | cons entry modules ih =>
    obtain ⟨hentry, hrest⟩ := List.forall_mem_cons.mp hmodules
    refine ih ?_ hrest
    rw [versions_mergeModule, ← versions_mergeLists]
    exact (nodup_versions_mergeLists_iff parent entry.2).mpr ⟨hparent, hentry.filter _⟩

end Modules

/-- What a system or a module hands out: no version twice, and no components. -/
structure IsListing (releases : List Release) : Prop where
  nodup : (versions releases).Nodup
  components : ∀ release ∈ releases, release.components = []

/-- In a listing, all actions of a version are in one release and none are in components. -/
theorem IsListing.actionsUnder_eq {listing : List Release} (h : IsListing listing)
    (version : String) : actionsUnder listing version = ownActions listing version := by
  rw [actionsUnder_of_nodup h.nodup, ownActions]
  cases hfind : find? listing version with
  | none => rfl
  | some release =>
    rw [Option.elim_some, Option.elim_some, allActions, h.components release (mem_of_find? hfind),
      List.flatMap_nil, List.append_nil]

/-- What is collected from systems and modules: each version that one of them lists, once, with the
actions of all systems in order and a component for each module that lists the version. The date and
the description are those of the first system that lists it. If none does, the date is that of the
first module and there is no description. -/
structure IsCollection (systems : List (List Release)) (modules : List (String × List Release))
    (releases : List Release) : Prop where
  nodup : (versions releases).Nodup
  mem_versions : ∀ version, version ∈ versions releases ↔
    (∃ listing ∈ systems, version ∈ versions listing) ∨
      ∃ entry ∈ modules, version ∈ versions entry.2
  actions : ∀ release ∈ releases,
    release.actions = systems.flatMap fun listing => actionsUnder listing release.version
  components : ∀ release ∈ releases,
    release.components = modules.filterMap fun entry =>
      (find? entry.2 release.version).map fun own =>
        ⟨entry.1, own.description, actionsUnder entry.2 release.version⟩
  date : ∀ release ∈ releases,
    release.date = ((firstOf systems release.version).or
      (firstOf (modules.map Prod.snd) release.version)).bind date
  description : ∀ release ∈ releases,
    release.description = (firstOf systems release.version).bind description

section Collection

variable {systems : List (List Release)} {modules : List (String × List Release)}

/-- A version is the first release that a system or else a module has of it, with the actions of all
systems and the components of all modules. -/
theorem find?_collection (systems : List (List Release)) (modules : List (String × List Release))
    (version : String) :
    find? (attachAll (mergeAll systems) modules) version =
      ((firstOf systems version).or ((firstOf (modules.map Prod.snd) version).map bare)).map
        fun release => { release with
          actions := systems.flatMap fun listing => ownActions listing version
          components := release.components ++ componentsFor modules version } := by
  rw [find?_attachAll, find?_mergeAll]
  cases hsystem : firstOf systems version with
  | some release => rfl
  | none =>
    have hactions : (systems.flatMap fun listing => ownActions listing version) = [] := by
      rw [List.flatMap_eq_nil_iff]
      intro listing hlisting
      rw [firstOf, List.findSome?_eq_none_iff] at hsystem
      rw [ownActions, hsystem listing hlisting, Option.elim_none]
    rw [hactions]
    cases firstOf (modules.map Prod.snd) version with
    | some own => rfl
    | none => rfl

/-- For each module that lists the version there is a component with what the module says of it. -/
theorem componentsFor_eq (hmodules : ∀ entry ∈ modules, IsListing entry.2) (version : String) :
    componentsFor modules version = modules.filterMap fun entry =>
      (find? entry.2 version).map fun own =>
        ⟨entry.1, own.description, actionsUnder entry.2 version⟩ := by
  apply List.filterMap_congr
  intro entry hentry
  rw [component?, (hmodules entry hentry).actionsUnder_eq, ownActions]
  cases find? entry.2 version with
  | some own => rfl
  | none => rfl

theorem components_of_firstOf (hsystems : ∀ listing ∈ systems, IsListing listing)
    {version : String} {release : Release} (h : firstOf systems version = some release) :
    release.components = [] := by
  obtain ⟨listing, hlisting, hfind⟩ := List.exists_of_findSome?_eq_some h
  exact (hsystems listing hlisting).components release (mem_of_find? hfind)

/-- Nothing is collected twice if nothing is listed twice by one system or by one module. -/
theorem nodup_versions_collection (hsystems : ∀ listing ∈ systems, IsListing listing)
    (hmodules : ∀ entry ∈ modules, IsListing entry.2) :
    (versions (attachAll (mergeAll systems) modules)).Nodup := by
  apply nodup_versions_attachAll
  · exact nodup_versions_foldl_mergeLists List.nodup_nil
      fun listing hlisting => (hsystems listing hlisting).nodup
  · exact fun entry hentry => (hmodules entry hentry).nodup

theorem mem_versions_collection (version : String) :
    version ∈ versions (attachAll (mergeAll systems) modules) ↔
      (∃ listing ∈ systems, version ∈ versions listing) ∨
        ∃ entry ∈ modules, version ∈ versions entry.2 := by
  rw [← find?_isSome_iff, find?_collection, Option.isSome_map, Option.isSome_or, Bool.or_eq_true,
    Option.isSome_map, firstOf_isSome_iff, firstOf_isSome_iff]
  simp only [List.mem_map, exists_exists_and_eq_and]

/-- What systems and modules hand out is collected without loss and without repetition. -/
theorem isCollection_attachAll_mergeAll (hsystems : ∀ listing ∈ systems, IsListing listing)
    (hmodules : ∀ entry ∈ modules, IsListing entry.2) :
    IsCollection systems modules (attachAll (mergeAll systems) modules) := by
  have hnodup := nodup_versions_collection hsystems hmodules
  have hfind : ∀ release ∈ attachAll (mergeAll systems) modules,
      find? (attachAll (mergeAll systems) modules) release.version = some release :=
    fun release hrelease => (find?_eq_some_iff hnodup).mpr ⟨hrelease, rfl⟩
  simp only [find?_collection, Option.map_eq_some_iff] at hfind
  refine ⟨hnodup, mem_versions_collection, fun release hrelease => ?_, fun release hrelease => ?_,
    fun release hrelease => ?_, fun release hrelease => ?_⟩
  all_goals obtain ⟨own, hown, heq⟩ := hfind release hrelease
  · rw [← congrArg Release.actions heq]
    apply List.flatMap_congr
    intro listing hlisting
    exact ((hsystems listing hlisting).actionsUnder_eq _).symm
  · have hcomponents : own.components = [] := by
      rcases Option.or_eq_some_iff.mp hown with hsystem | ⟨_, hmodule⟩
      · exact components_of_firstOf hsystems hsystem
      · obtain ⟨first, _, rfl⟩ := Option.map_eq_some_iff.mp hmodule
        rfl
    rw [← componentsFor_eq hmodules, ← congrArg Release.components heq]
    simp only [hcomponents, List.nil_append]
  · rw [← congrArg Release.date heq]
    rcases Option.or_eq_some_iff.mp hown with hsystem | ⟨hsystem, hmodule⟩
    · rw [hsystem, Option.some_or, Option.bind_some]
    · obtain ⟨first, hfirst, rfl⟩ := Option.map_eq_some_iff.mp hmodule
      rw [hsystem, hfirst, Option.none_or, Option.bind_some, bare]
  · rw [← congrArg Release.description heq]
    rcases Option.or_eq_some_iff.mp hown with hsystem | ⟨hsystem, hmodule⟩
    · rw [hsystem, Option.bind_some]
    · obtain ⟨first, _, rfl⟩ := Option.map_eq_some_iff.mp hmodule
      rw [hsystem, Option.bind_none, bare]

end Collection

end ReleaseNotes.Release
