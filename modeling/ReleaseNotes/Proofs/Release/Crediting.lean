import ReleaseNotes.Proofs.Text.Trimming
import ReleaseNotes.Release.Basic

/-!
Contributors from a list of names and a list of addresses. Blank names are left out before the names
are numbered, and blank addresses are not, so a name gets the address in its own place exactly if
the address there is the one in its place among the names that are not blank.
-/

namespace ReleaseNotes.Contributor

open Text

def addressAt (emails : Option String) (place : Nat) : Option String :=
  (nonBlank? (commaEntries emails)[place]?).map trim

def credited? (address : Nat → Option String) (entry : String × Nat) : Option Contributor :=
  if isBlankText entry.1 then none else some ⟨trim entry.1, address entry.2⟩

/-- Each name that is not blank, with the address in the same place. -/
def parallel (names emails : Option String) : List Contributor :=
  (commaEntries names).zipIdx.filterMap (credited? (addressAt emails))

section Reading

theorem getElem?_addresses_filter (emails : Option String) (place : Nat) :
    (addresses emails)[place]?.filter (· != "") = addressAt emails place := by
  have haddresses : addresses emails = (commaEntries emails).map trim := by
    cases emails <;> rfl
  rw [haddresses, List.getElem?_map, addressAt, nonBlank?, Option.filter_map]
  congr 2
  funext entry
  rw [Bool.eq_iff_iff, Function.comp_apply, bne_iff_ne, ne_eq, trim_eq_empty_iff, Bool.not_eq_true',
    Bool.not_eq_true]

theorem pair_cons (name : String) (names emails : List String) :
    pair (name :: names) emails =
      ⟨name, emails.head?.filter (· != "")⟩ :: pair names emails.tail := by
  cases emails with
  | nil => rfl
  | cons email emails =>
    rw [pair, List.head?_cons, Option.filter_some, List.tail_cons]
    by_cases hemail : email = ""
    · simp [hemail]
    · simp [hemail]

/-- Pairing names with addresses from a place on, by induction on the names with the place free. -/
theorem pair_drop_eq (names emails : List String) (place : Nat) :
    pair names (emails.drop place) = (names.zipIdx place).map fun entry =>
      ⟨entry.1, emails[entry.2]?.filter (· != "")⟩ := by
  induction names generalizing place with
  | nil => cases emails.drop place <;> rfl
  | cons name names ih =>
    rw [pair_cons, List.head?_drop, List.tail_drop, ih, List.zipIdx_cons, List.map_cons]

/-- The contributors are the names that are not blank, and they have the addresses in their places
among these. -/
theorem ofLists_eq (names emails : Option String) :
    ofLists names emails = (nonBlankItems (commaEntries names)).zipIdx.map fun entry =>
      ⟨trim entry.1, addressAt emails entry.2⟩ := by
  have hpair := pair_drop_eq (commaItems names) (addresses emails) 0
  simp only [List.drop_zero, getElem?_addresses_filter] at hpair
  rw [ofLists, hpair, commaItems_eq_map, List.zipIdx_map, List.map_map]
  rfl

end Reading

section Places

/-- A property of each place of a list is one of the first place and of each later one. -/
theorem forall_split_cons_iff {α : Type} (property : List α → α → Prop) {first : α}
    {rest : List α} :
    (∀ before item after, first :: rest = before ++ item :: after → property before item) ↔
      property [] first ∧
        ∀ before item after, rest = before ++ item :: after → property (first :: before) item := by
  constructor
  · intro h
    refine ⟨h [] first rest rfl, fun before item after hrest => ?_⟩
    exact h (first :: before) item after (by rw [hrest, List.cons_append])
  · rintro ⟨hfirst, hrest⟩ before item after hsplit
    cases before with
    | nil =>
      obtain ⟨rfl, _⟩ := List.cons.inj hsplit
      exact hfirst
    | cons other before =>
      obtain ⟨rfl, htail⟩ := List.cons.inj hsplit
      exact hrest before item after htail

/-- Names that are numbered without the blank ones get the addresses of their own places exactly if
the address in a name's place is always that of the number of names before it. -/
theorem map_zipIdx_eq_iff (address : Nat → Option String) (items : List String)
    (number place : Nat) :
    (((nonBlankItems items).zipIdx number).map fun entry =>
        Contributor.mk (trim entry.1) (address entry.2)) =
      (items.zipIdx place).filterMap (credited? address) ↔
    ∀ before name after, items = before ++ name :: after → isBlankText name = false →
      address (number + (nonBlankItems before).length) = address (place + before.length) := by
  induction items generalizing number place with
  | nil => simp [nonBlankItems]
  | cons first items ih =>
    rw [forall_split_cons_iff fun before name => isBlankText name = false →
      address (number + (nonBlankItems before).length) = address (place + before.length)]
    by_cases hfirst : isBlankText first = true
    · have hlater (before : List String) :
          nonBlankItems (first :: before) = nonBlankItems before :=
        List.filter_cons_of_neg (by simp [hfirst])
      have hnone : credited? address (first, place) = none := if_pos hfirst
      rw [hlater, List.zipIdx_cons, List.filterMap_cons_none hnone, ih]
      simp [hlater, hfirst, Nat.add_assoc, Nat.add_comm 1]
    · rw [Bool.not_eq_true] at hfirst
      have hlater (before : List String) :
          nonBlankItems (first :: before) = first :: nonBlankItems before :=
        List.filter_cons_of_pos (by simp [hfirst])
      have hsome : credited? address (first, place) = some ⟨trim first, address place⟩ :=
        if_neg (by simp [hfirst])
      have hnil : nonBlankItems [] = [] := rfl
      rw [hlater, List.zipIdx_cons, List.zipIdx_cons, List.map_cons,
        List.filterMap_cons_some hsome, List.cons.injEq, ih]
      simp [hlater, hnil, hfirst, Nat.add_assoc, Nat.add_comm 1]

end Places

section Pairing

variable {names emails : Option String}

/-- The two readings of the lists agree exactly if dropping the blank names before a name does not
shift its address. -/
theorem ofLists_eq_parallel_iff : ofLists names emails = parallel names emails ↔
    ∀ before name after, commaEntries names = before ++ name :: after → isBlankText name = false →
      addressAt emails (nonBlankItems before).length = addressAt emails before.length := by
  have hplaces := map_zipIdx_eq_iff (addressAt emails) (commaEntries names) 0 0
  simp only [Nat.zero_add] at hplaces
  rw [ofLists_eq, parallel, hplaces]

def addressAfter (empty : Nat) : String :=
  joinWith "," (List.replicate empty "" ++ ["someone"])

theorem addressAt_addressAfter (empty place : Nat) :
    addressAt (some (addressAfter empty)) place =
      if place = empty then some "someone" else none := by
  have hentries : commaEntries (some (addressAfter empty)) =
      List.replicate empty "" ++ ["someone"] := by
    refine splitAt_joinWith rfl ?_ (by simp)
    intro entry hentry
    rcases List.mem_append.mp hentry with hempty | hsome
    · rw [List.eq_of_mem_replicate hempty]
      exact List.not_mem_nil
    · rw [List.mem_singleton.mp hsome]
      decide
  rw [addressAt, hentries]
  rcases Nat.lt_trichotomy place empty with hlt | rfl | hgt
  · rw [List.getElem?_append_left (by simpa using hlt), List.getElem?_replicate_of_lt hlt,
      if_neg (Nat.ne_of_lt hlt)]
    rfl
  · have hlast : place - (List.replicate place "").length = 0 := by simp
    rw [List.getElem?_append_right (by simp), hlast, if_pos rfl]
    decide +kernel
  · have hlength : (List.replicate empty "" ++ ["someone"]).length ≤ place := by
      rw [List.length_append, List.length_replicate, List.length_singleton]
      exact hgt
    rw [List.getElem?_eq_none hlength, if_neg (Nat.ne_of_gt hgt)]
    rfl

/-- Names are paired with any addresses in the same places exactly if no blank one comes before
another name. -/
theorem forall_ofLists_eq_parallel_iff :
    (∀ emails, ofLists names emails = parallel names emails) ↔
      ∀ before name after, commaEntries names = before ++ name :: after → isBlankText name = false →
        ∀ other ∈ before, isBlankText other = false := by
  constructor
  · intro h before name after hsplit hname other hother
    by_contra hblank
    have hfewer : (nonBlankItems before).length < before.length :=
      List.length_filter_lt_length_iff_exists.mpr ⟨other, hother, by simpa using hblank⟩
    have hplaces := ofLists_eq_parallel_iff.mp (h (some (addressAfter before.length)))
      before name after hsplit hname
    rw [addressAt_addressAfter, addressAt_addressAfter, if_pos rfl,
      if_neg (Nat.ne_of_lt hfewer)] at hplaces
    contradiction
  · intro h emails
    refine ofLists_eq_parallel_iff.mpr fun before name after hsplit hname => ?_
    have hnone : nonBlankItems before = before := by
      refine List.filter_eq_self.mpr fun other hother => ?_
      simpa using h before name after hsplit hname other hother
    rw [hnone]

end Pairing

/-- The contributors are the names that are not blank, in order, with the addresses in their places
among these. They have the addresses in their own places exactly if there is the same address in
both places of each name, and with all lists of addresses exactly if no blank name comes before
another one. -/
theorem ofLists_isParallel_iff (names : Option String) :
    (∀ emails, ofLists names emails = (nonBlankItems (commaEntries names)).zipIdx.map fun entry =>
      ⟨trim entry.1, addressAt emails entry.2⟩) ∧
    (∀ emails, ofLists names emails = parallel names emails ↔
      ∀ before name after, commaEntries names = before ++ name :: after → isBlankText name = false →
        addressAt emails (nonBlankItems before).length = addressAt emails before.length) ∧
    ((∀ emails, ofLists names emails = parallel names emails) ↔
      ∀ before name after, commaEntries names = before ++ name :: after → isBlankText name = false →
        ∀ other ∈ before, isBlankText other = false) :=
  ⟨ofLists_eq names, fun _ => ofLists_eq_parallel_iff, forall_ofLists_eq_parallel_iff⟩

/-- The second name gets the first address, as the first name is blank. -/
theorem ofLists_ne_parallel :
    ¬∀ names emails, ofLists names emails = parallel names emails := by
  intro h
  have hpair := h (some ", John Roe") (some "jane@example.org, john@example.org")
  revert hpair
  decide +kernel

end ReleaseNotes.Contributor
