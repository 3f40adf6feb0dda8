import Mathlib.Logic.Relation
import ReleaseNotes.Proofs.Text.Trimming
import ReleaseNotes.Proofs.Version.Items

/-!
Ways to spell the same version. Which separators stand between two items does not matter, nor how
many do, and none is needed where digits meet other characters; neither does the case of letters of
ASCII, nor zeros in front of a number that is not too long. A version that is spelled in another way
has the same items, so it compares as before with every other one.
-/

namespace ReleaseNotes.Version

open Text

/-- One step to another spelling, at any place of a text. -/
inductive Respelled : List Char → List Char → Prop
  | separator (before after : List Char) {c d : Char} (hc : isSeparator c = true)
      (hd : isSeparator d = true) : Respelled (before ++ c :: after) (before ++ d :: after)
  | repeated (before after : List Char) {c : Char} (hc : isSeparator c = true) :
      Respelled (before ++ c :: after) (before ++ c :: c :: after)
  | leading (chars : List Char) {c : Char} (hc : isSeparator c = true) :
      Respelled chars (c :: chars)
  | trailing (chars : List Char) {c : Char} (hc : isSeparator c = true) :
      Respelled chars (chars ++ [c])
  /-- A separator where digits meet other characters. -/
  | gap (before after : List Char) {c d between : Char} (hkind : c.isDigit ≠ d.isDigit)
      (hbetween : isSeparator between = true) :
      Respelled (before ++ c :: d :: after) (before ++ c :: between :: d :: after)
  /-- The same letter in another case. Only letters of ASCII are lowered here. -/
  | letter (before after : List Char) {c d : Char} (hcase : c.toLower = d.toLower) :
      Respelled (before ++ c :: after) (before ++ d :: after)
  /-- A zero in front of all digits of a number below two to the power of 64. -/
  | zero (before after : List Char) {run : List Char} (hrun : isDigits run = true)
      (hbefore : ∀ c ∈ before.getLast?, c.isDigit = false)
      (hafter : ∀ c ∈ after.head?, c.isDigit = false) (hlt : valueOfDigits run < 2 ^ 64) :
      Respelled (before ++ (run ++ after)) (before ++ ('0' :: run ++ after))

section Steps

variable {before run after chars others : List Char}

theorem isRun_zero_cons (hrun : IsRun true run) : IsRun true ('0' :: run) where
  ne_nil := List.cons_ne_nil _ _
  isDigit_eq := List.forall_mem_cons.mpr ⟨rfl, hrun.isDigit_eq⟩
  isSeparator_eq := List.forall_mem_cons.mpr ⟨rfl, hrun.isSeparator_eq⟩

theorem ofRun_zero_cons (hrun : IsRun true run) (hlt : valueOfDigits run < UInt64.size) :
    Item.ofRun ('0' :: run) = Item.ofRun run := by
  have hvalue : valueOfDigits ('0' :: run) = valueOfDigits run := by
    have hzero : digitValue '0' = 0 := rfl
    rw [valueOfDigits_cons, hzero, Nat.zero_mul, Nat.zero_add]
  rw [ofRun_of_lt hrun hlt, ofRun_of_lt (isRun_zero_cons hrun) (by rwa [hvalue]), hvalue]

/-- Digits between other characters are an item. -/
theorem itemsOf_digits_between (hrun : IsRun true run)
    (hbefore : ∀ c ∈ before.getLast?, c.isDigit = false)
    (hafter : ∀ c ∈ after.head?, c.isDigit = false) :
    itemsOf (before ++ (run ++ after)) = itemsOf before ++ Item.ofRun run :: itemsOf after := by
  have hstops : Stops true after := fun c hc => Or.inr (by simp [hafter c hc])
  have hbreaks : Breaks before (run ++ after) := by
    intro c hc d hd
    obtain ⟨first, rest, rfl⟩ := List.exists_cons_of_ne_nil hrun.ne_nil
    obtain rfl : first = d := by simpa using hd
    refine Or.inr (Or.inr ?_)
    rw [hbefore c hc, hrun.isDigit_eq first List.mem_cons_self]
    exact Bool.false_ne_true
  rw [itemsOf_append hbreaks, itemsOf_run_append hrun hstops]

/-- Spelling a version in another way leaves its items as they are, whatever the steps were. -/
theorem Respelled.itemsOf_eq (h : Respelled chars others) : itemsOf others = itemsOf chars := by
  cases h with
  | separator before after hc hd =>
    rw [itemsOf_append_separator_cons hc, itemsOf_append_separator_cons hd]
  | repeated before after hc =>
    rw [itemsOf_append_separator_cons hc, itemsOf_append_separator_cons hc,
      itemsOf_separator_cons hc]
  | leading chars hc => exact itemsOf_separator_cons hc chars
  | trailing chars hc =>
    rw [itemsOf_append_separator_cons hc, itemsOf_nil, List.append_nil]
  | @gap before after c d between hkind hbetween =>
    have hbreaks : Breaks (before ++ [c]) (d :: after) := by
      intro last hlast first hfirst
      obtain rfl : c = last := by simpa using hlast
      obtain rfl : d = first := by simpa using hfirst
      exact Or.inr (Or.inr hkind)
    have hwith := itemsOf_append_separator_cons hbetween (before ++ [c]) (d :: after)
    have hwithout := itemsOf_append hbreaks
    rw [List.append_assoc, List.singleton_append] at hwith hwithout
    rw [hwith, hwithout]
  | @letter before after c d hcase =>
    have hlower : (before ++ d :: after).map Char.toLower =
        (before ++ c :: after).map Char.toLower := by
      rw [List.map_append, List.map_append, List.map_cons, List.map_cons, hcase]
    rw [← itemsOf_map_toLower, hlower, itemsOf_map_toLower]
  | zero before after hrun hbefore hafter hlt =>
    have hdigits := isRun_of_isDigits hrun
    rw [itemsOf_digits_between hdigits hbefore hafter,
      itemsOf_digits_between (isRun_zero_cons hdigits) hbefore hafter, ofRun_zero_cons hdigits hlt]

/-- No step puts a blank character at an end. -/
theorem Respelled.trimChars_eq (h : Respelled chars others) (htrim : trimChars chars = chars) :
    trimChars others = others := by
  cases h with
  | separator before after hc hd =>
    exact trimChars_of_replaced before after (List.cons_ne_nil _ []) (List.cons_ne_nil _ [])
      (fun _ => isBlank_of_isSeparator hd) (fun _ => isBlank_of_isSeparator hd) htrim
  | @repeated before after c hc =>
    exact trimChars_of_replaced before after (List.cons_ne_nil c []) (List.cons_ne_nil c [c])
      (fun _ => isBlank_of_isSeparator hc) (fun _ => isBlank_of_isSeparator hc) htrim
  | leading chars hc =>
    have hblank := isBlank_of_isSeparator hc
    rw [trimChars_eq_self_iff] at htrim ⊢
    refine ⟨fun first hfirst => ?_, fun last hlast => ?_⟩
    · obtain rfl := Option.some.inj hfirst
      exact hblank
    · rw [List.getLast?_cons] at hlast
      obtain rfl := Option.some.inj hlast
      cases hchars : chars.getLast? with
      | none => exact hblank
      | some d => exact htrim.2 d hchars
  | trailing chars hc =>
    have hblank := isBlank_of_isSeparator hc
    rw [trimChars_eq_self_iff] at htrim ⊢
    refine ⟨fun first hfirst => ?_, fun last hlast => ?_⟩
    · cases chars with
      | nil => exact Option.some.inj hfirst ▸ hblank
      | cons d chars => exact htrim.1 first hfirst
    · rw [List.getLast?_concat] at hlast
      exact Option.some.inj hlast ▸ hblank
  | @gap before after c d between hkind hbetween =>
    exact trimChars_of_replaced before after (List.cons_ne_nil c [d])
      (List.cons_ne_nil c [between, d]) id id htrim
  | @letter before after c d hcase =>
    have hblank : isBlank c = false → isBlank d = false := by
      rw [← isBlank_toLower c, hcase, isBlank_toLower]
      exact id
    exact trimChars_of_replaced before after (List.cons_ne_nil c []) (List.cons_ne_nil d []) hblank
      hblank htrim
  | @zero before after run hrun hbefore hafter hlt =>
    have hne : run ≠ [] := (isRun_of_isDigits hrun).ne_nil
    refine trimChars_of_replaced before after hne (List.cons_ne_nil '0' run) (fun _ => rfl) ?_ htrim
    rw [List.getLast_cons hne]
    exact id

/-- Any number of steps keep a trimmed text trimmed, and they keep its items. -/
theorem itemsOf_eq_of_respelled (h : Relation.ReflTransGen Respelled chars others)
    (htrim : trimChars chars = chars) :
    trimChars others = others ∧ itemsOf others = itemsOf chars := by
  induction h with
  | refl => exact ⟨htrim, rfl⟩
  | tail _ hstep ih =>
    obtain ⟨hkept, hitems⟩ := ih
    exact ⟨hstep.trimChars_eq hkept, hstep.itemsOf_eq.trans hitems⟩

end Steps

/-- Spelling a version in another way, in any number of steps, changes neither its items nor the
outcome of any comparison. -/
theorem compare_of_respelled {version other : String} (htrim : trim version = version)
    (h : Relation.ReflTransGen Respelled version.toList other.toList) :
    items other = items version ∧
      ∀ third, compare other third = compare version third ∧
        compare third other = compare third version := by
  have hchars : trimChars version.toList = version.toList := by rw [← toList_trim, htrim]
  obtain ⟨hother, hsame⟩ := itemsOf_eq_of_respelled h hchars
  have hitems : items other = items version := by
    rw [items_eq, items_eq, hother, hchars, hsame]
  refine ⟨hitems, fun third => ⟨?_, ?_⟩⟩
  · rw [compare, compare, hitems]
  · rw [compare, compare, hitems]

/-- Each kind of step, on the way from one spelling of a release candidate to another. -/
theorem respelled_candidate :
    Relation.ReflTransGen Respelled "1.0-RC1".toList "_1_0--rc.01-".toList := by
  have hseparator : Respelled "1.0-RC1".toList "1_0-RC1".toList :=
    .separator "1".toList "0-RC1".toList rfl rfl
  have hfirst : Respelled "1_0-RC1".toList "1_0-rC1".toList :=
    .letter "1_0-".toList "C1".toList rfl
  have hsecond : Respelled "1_0-rC1".toList "1_0-rc1".toList :=
    .letter "1_0-r".toList "1".toList rfl
  have hgap : Respelled "1_0-rc1".toList "1_0-rc.1".toList :=
    .gap "1_0-r".toList [] (by decide) rfl
  have hdigits : isDigits ['1'] = true := rfl
  have hzero : Respelled "1_0-rc.1".toList "1_0-rc.01".toList :=
    .zero "1_0-rc.".toList [] hdigits (by simp) nofun (by decide)
  have hrepeated : Respelled "1_0-rc.01".toList "1_0--rc.01".toList :=
    .repeated "1_0".toList "rc.01".toList rfl
  have htrailing : Respelled "1_0--rc.01".toList "1_0--rc.01-".toList := .trailing _ rfl
  have hleading : Respelled "1_0--rc.01-".toList "_1_0--rc.01-".toList := .leading _ rfl
  exact .tail (.tail (.tail (.tail (.tail (.tail (.tail (.single hseparator) hfirst) hsecond) hgap)
    hzero) hrepeated) htrailing) hleading

/-- The candidate in its other spelling is older than its release as well. -/
theorem compare_of_respelled_candidate :
    trim "1.0-RC1" = "1.0-RC1" ∧
      Relation.ReflTransGen Respelled "1.0-RC1".toList "_1_0--rc.01-".toList ∧
      compare "_1_0--rc.01-" "1.0" = .lt := by
  have htrim : trim "1.0-RC1" = "1.0-RC1" := by decide
  have hcandidate : items "1.0-RC1" = [.number 1, .number 0, .qualifier "rc", .number 1] := by
    decide +kernel
  have hrelease : items "1.0" = [.number 1, .number 0] := by decide +kernel
  have hlt : compare "1.0-RC1" "1.0" = .lt := by
    rw [compare, hcandidate, hrelease]
    simp only [compareItems]
    rfl
  have hsame := (compare_of_respelled htrim respelled_candidate).2 "1.0"
  exact ⟨htrim, respelled_candidate, hsame.1.trans hlt⟩

end ReleaseNotes.Version
