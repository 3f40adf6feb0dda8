import Mathlib.Data.List.Basic
import Mathlib.Data.List.Count
import Mathlib.Data.List.Nodup
import ReleaseNotes.Proofs.Text.Tokens
import ReleaseNotes.Report.Link

/-!
Links as templates with all their tokens filled in at once. A linker fills in the first token for
the issue and then, in the text that has the issue already, the first token for the address. Both
come to the same for all issues exactly if the template has each token once at most, the one for the
address before the one for the issue and not without it; or if the address does not matter and there
is one token for the issue at most.
-/

namespace ReleaseNotes

open Text

namespace Linker

inductive Part where
  | char (c : Char)
  | issue
  | address
deriving DecidableEq, Repr

def Part.isToken : Part → Bool
  | .char _ => false
  | _ => true

def Part.written (issue address : List Char) : Part → List Char
  | .char c => [c]
  | .issue => issue
  | .address => address

def written (issue address : List Char) (parts : List Part) : List Char :=
  parts.flatMap (Part.written issue address)

def Part.spelling (part : Part) : List Char :=
  part.written issueToken.toList urlToken.toList

def spelled (parts : List Part) : List Char :=
  written issueToken.toList urlToken.toList parts

theorem length_lt_of_afterStart? {start chars tail : List Char} (hstart : start ≠ [])
    (h : afterStart? start chars = some tail) : tail.length < chars.length := by
  have hlength := congrArg List.length (afterStart?_eq_some_iff.mp h)
  have hpositive := List.length_pos_iff.mpr hstart
  rw [List.length_append] at hlength
  omega

def parts (template : List Char) : List Part :=
  match _hissue : afterStart? issueToken.toList template with
  | some rest => .issue :: parts rest
  | none =>
    match _haddress : afterStart? urlToken.toList template with
    | some rest => .address :: parts rest
    | none =>
      match template with
      | [] => []
      | c :: rest => .char c :: parts rest
termination_by template.length
decreasing_by
  · exact length_lt_of_afterStart? (by decide) _hissue
  · exact length_lt_of_afterStart? (by decide) _haddress
  · exact Nat.lt_succ_self _

/-- A template with all its tokens filled in. -/
def substituted (template issue address : String) : String :=
  String.ofList (written issue.toList address.toList (parts template.toList))

def filledInTurn (issue address template : List Char) : List Char :=
  replaceFirst urlToken.toList address (replaceFirst issueToken.toList issue template)

def tokens (template : String) : List Part :=
  (parts template.toList).filter Part.isToken

/-- No token begins within another one. -/
def IsSeparate (template : List Char) : Prop :=
  ∀ later < template.length, ∀ earlier < later,
    ∀ first ∈ [issueToken.toList, urlToken.toList], ∀ second ∈ [issueToken.toList, urlToken.toList],
      first <+: template.drop earlier → second <+: template.drop later →
        earlier + first.length ≤ later

instance (template : List Char) : Decidable (IsSeparate template) :=
  inferInstanceAs (Decidable (∀ later < template.length, _))

/-- An issue of which no part can be taken for a part of the token for the address, wherever it
stands. -/
def IsOrdinary (issue : String) : Prop :=
  '%' ∉ issue.toList ∧ ∃ c ∈ issue.toList, c ∉ urlToken.toList

section Writing

variable {issue address : List Char} {ps : List Part}

theorem written_append (first second : List Part) :
    written issue address (first ++ second) =
      written issue address first ++ written issue address second :=
  List.flatMap_append

theorem written_cons (part : Part) (others : List Part) :
    written issue address (part :: others) =
      part.written issue address ++ written issue address others :=
  rfl

theorem spelled_append (first second : List Part) :
    spelled (first ++ second) = spelled first ++ spelled second :=
  written_append first second

theorem spelled_cons (part : Part) (others : List Part) :
    spelled (part :: others) = part.spelling ++ spelled others :=
  rfl

theorem written_of_issue_notMem (h : .issue ∉ ps) (other : List Char) :
    written issue address ps = written other address ps := by
  apply List.flatMap_congr
  intro part hpart
  cases part with
  | issue => contradiction
  | _ => rfl

theorem written_of_address_notMem (h : .address ∉ ps) (other : List Char) :
    written issue address ps = written issue other ps := by
  apply List.flatMap_congr
  intro part hpart
  cases part with
  | address => contradiction
  | _ => rfl

/-- Parts without tokens are written as they are. -/
theorem written_eq_spelled (hissue : .issue ∉ ps) (haddress : .address ∉ ps) :
    written issue address ps = spelled ps :=
  (written_of_issue_notMem hissue _).trans (written_of_address_notMem haddress _)

/-- Each token makes a template longer by what is filled in for it. -/
theorem length_written (issue address : List Char) (ps : List Part) :
    (written issue address ps).length =
      (written [] [] ps).length + ps.count .issue * issue.length +
        ps.count .address * address.length := by
  induction ps with
  | nil => simp [written]
  | cons part ps ih =>
    rw [written_cons, written_cons, List.length_append, List.length_append, ih]
    cases part with
    | char c =>
      simp [Part.written]
      omega
    | issue =>
      simp [Part.written, Nat.add_mul]
      omega
    | address =>
      simp [Part.written, Nat.add_mul]
      omega

/-- Two addresses are told apart where there is a token for the address. -/
theorem eq_of_written_eq {other : List Char} (haddress : .address ∈ ps)
    (h : written issue address ps = written issue other ps) : address = other := by
  have hlength := congrArg List.length h
  rw [length_written issue address, length_written issue other, Nat.add_left_cancel_iff] at hlength
  have hsame : address.length = other.length :=
    Nat.eq_of_mul_eq_mul_left (List.count_pos_iff.mpr haddress) hlength
  obtain ⟨before, after, rfl, hfirst⟩ := List.eq_append_cons_of_mem haddress
  rw [written_append, written_append, written_of_address_notMem hfirst other, written_cons,
    written_cons] at h
  exact List.append_inj_left (List.append_cancel_left h) hsame

end Writing

section Scanning

variable {template : List Char} {ps : List Part}

/-- One token does not begin like the other one. -/
theorem eq_of_spelling_isPrefix {first second : Part} (hfirst : first.isToken = true)
    (hsecond : second.isToken = true) (h : first.spelling <+: second.spelling) :
    first = second := by
  cases first <;> cases second <;> first | rfl | contradiction

/-- No token begins with another one, so a place has one token at most. -/
theorem eq_of_isPrefix {first second : Part} (hfirst : first.isToken = true)
    (hsecond : second.isToken = true) (hfirstStart : first.spelling <+: template)
    (hsecondStart : second.spelling <+: template) : first = second := by
  rcases List.prefix_or_prefix_of_prefix hfirstStart hsecondStart with h | h
  · exact eq_of_spelling_isPrefix hfirst hsecond h
  · exact (eq_of_spelling_isPrefix hsecond hfirst h).symm

/-- A template is its first part and the others, and begins with no token but this one. -/
theorem exists_of_parts_cons {part : Part} (h : parts template = part :: ps) :
    ∃ rest, template = part.spelling ++ rest ∧ parts rest = ps ∧
      ∀ token : Part, token.isToken = true → token ≠ part → ¬token.spelling <+: template := by
  have hother {part : Part} (hpart : part.isToken = true) (hstart : part.spelling <+: template) :
      ∀ token : Part, token.isToken = true → token ≠ part → ¬token.spelling <+: template := by
    intro token htoken hne hbegin
    exact hne (eq_of_isPrefix htoken hpart hbegin hstart)
  rw [parts] at h
  split at h
  · rename_i rest hissue
    obtain ⟨rfl, rfl⟩ := List.cons.inj h
    have hstart := afterStart?_eq_some_iff.mp hissue
    exact ⟨rest, hstart, rfl, hother rfl ⟨rest, hstart.symm⟩⟩
  · rename_i hissue
    split at h
    · rename_i rest haddress
      obtain ⟨rfl, rfl⟩ := List.cons.inj h
      have hstart := afterStart?_eq_some_iff.mp haddress
      exact ⟨rest, hstart, rfl, hother rfl ⟨rest, hstart.symm⟩⟩
    · rename_i haddress
      split at h
      · contradiction
      · rename_i c rest _ _
        obtain ⟨rfl, rfl⟩ := List.cons.inj h
        refine ⟨rest, rfl, rfl, ?_⟩
        intro token htoken _
        cases token with
        | char d => contradiction
        | issue => exact afterStart?_eq_none_iff.mp hissue
        | address => exact afterStart?_eq_none_iff.mp haddress

theorem eq_nil_of_parts (h : parts template = []) : template = [] := by
  rw [parts] at h
  split at h
  · contradiction
  · split at h
    · contradiction
    · split at h
      · rfl
      · contradiction

/-- Taking a template apart loses nothing. -/
theorem spelled_of_parts (h : parts template = ps) : spelled ps = template := by
  induction ps generalizing template with
  | nil => exact (eq_nil_of_parts h).symm
  | cons part ps ih =>
    obtain ⟨rest, rfl, hrest, _⟩ := exists_of_parts_cons h
    rw [spelled_cons, ih hrest]

/-- What follows some of the parts is read by itself. -/
theorem parts_spelled_of_append {before after : List Part} (h : parts template = before ++ after) :
    parts (spelled after) = after := by
  induction before generalizing template with
  | nil =>
    rw [List.nil_append] at h
    rw [spelled_of_parts h, h]
  | cons part before ih =>
    obtain ⟨rest, _, hrest, _⟩ := exists_of_parts_cons h
    exact ih hrest

theorem IsSeparate.of_append {first rest : List Char} (h : IsSeparate (first ++ rest)) :
    IsSeparate rest := by
  intro later hlater earlier hearlier one hone other hother hbegin hinside
  have hdrop (n : Nat) : (first ++ rest).drop (first.length + n) = rest.drop n := by
    rw [List.drop_append, List.drop_of_length_le (Nat.le_add_right _ _), List.nil_append,
      Nat.add_sub_cancel_left]
  rw [← hdrop] at hbegin hinside
  have hlength : first.length + later < (first ++ rest).length := by
    rw [List.length_append]
    omega
  have hapart := h _ hlength _ (Nat.add_lt_add_left hearlier _) one hone other hother hbegin hinside
  omega

theorem spelling_mem_of_isToken {token : Part} (h : token.isToken = true) :
    token.spelling ∈ [issueToken.toList, urlToken.toList] := by
  cases token with
  | char c => contradiction
  | issue => exact List.mem_cons_self
  | address => exact List.mem_cons_of_mem _ List.mem_cons_self

/-- No other token begins within the spelling of a part. -/
theorem IsSeparate.uncut_spelling {part token : Part} {rest : List Char}
    (h : IsSeparate (part.spelling ++ rest)) (htoken : token.isToken = true)
    (hbegin : ¬token.spelling <+: part.spelling ++ rest) :
    Uncut unmarked token.spelling rest false part.spelling := by
  apply uncut_of_forall_drop
  intro n hn hprefix
  cases n with
  | zero => exact hbegin hprefix
  | succ n =>
    have hpart : part.isToken = true := by
      cases part with
      | char c => exact absurd hn (Nat.not_lt_of_le (Nat.succ_le_succ (Nat.zero_le n)))
      | _ => rfl
    have hlength : n + 1 < (part.spelling ++ rest).length := by
      rw [List.length_append]
      exact Nat.lt_add_right _ hn
    have hapart := h (n + 1) hlength 0 (Nat.succ_pos n) _ (spelling_mem_of_isToken hpart) _
      (spelling_mem_of_isToken htoken) (List.prefix_append _ _) hprefix
    omega

/-- A token begins within the spelling of some parts of a template only if it is one of them. -/
theorem uncut_spelled (hseparate : IsSeparate template) {before after : List Part} (token : Part)
    (htoken : token.isToken = true) (h : parts template = before ++ after) (hnot : token ∉ before) :
    Uncut unmarked token.spelling (spelled after) false (spelled before) := by
  induction before generalizing template with
  | nil => trivial
  | cons part before ih =>
    rw [List.mem_cons, not_or] at hnot
    obtain ⟨rest, rfl, hrest, hfirst⟩ := exists_of_parts_cons h
    have hspelled : spelled before ++ spelled after = rest := by
      rw [← spelled_append]
      exact spelled_of_parts hrest
    have hpart := hseparate.uncut_spelling htoken (hfirst token htoken hnot.1)
    rw [← hspelled] at hpart
    rw [spelled_cons]
    exact uncut_unmarked_append.mpr ⟨hpart, ih hseparate.of_append hrest hnot.2⟩

end Scanning

section Passes

variable {template issue address : List Char} {before after : List Part}

theorem mem_filter_isToken {ps : List Part} {token : Part} (htoken : token.isToken = true) :
    token ∈ ps.filter Part.isToken ↔ token ∈ ps := by
  simp [List.mem_filter, htoken]

/-- A part that is there once at most is not there again. -/
theorem notMem_of_count_le_one {part : Part} (h : (before ++ part :: after).count part ≤ 1) :
    part ∉ after := by
  rw [List.count_append, List.count_cons_self] at h
  apply List.count_eq_zero.mp
  omega

/-- What comes before the first token of a template is written as it is. -/
theorem written_before_token (h : ∀ part ∈ before, ¬part.isToken = true) (token : Part) :
    written issue address (before ++ token :: after) =
      spelled before ++ (token.written issue address ++ written issue address after) := by
  have hnone : .issue ∉ before ∧ .address ∉ before :=
    ⟨fun hmem => h _ hmem rfl, fun hmem => h _ hmem rfl⟩
  rw [written_append, written_cons, written_eq_spelled hnone.1 hnone.2]

/-- The first token for the issue is filled in. -/
theorem replaceFirst_issue (hseparate : IsSeparate template)
    (h : (parts template).count .issue ≤ 1) (issue : List Char) :
    replaceFirst issueToken.toList issue template =
      written issue urlToken.toList (parts template) := by
  by_cases hmem : .issue ∈ parts template
  · obtain ⟨before, after, hparts, hbefore⟩ := List.eq_append_cons_of_mem hmem
    have hafter : .issue ∉ after := by
      rw [hparts] at h
      exact notMem_of_count_le_one h
    have huncut := uncut_spelled hseparate .issue rfl hparts hbefore
    have hspelled := spelled_of_parts hparts
    rw [spelled_append, spelled_cons] at hspelled
    rw [spelled_cons] at huncut
    rw [hparts, written_append, written_cons, written_of_issue_notMem hbefore issueToken.toList,
      written_of_issue_notMem hafter issueToken.toList]
    conv_lhs => rw [← hspelled]
    exact replaceFirst_append (by decide) huncut issue
  · have huncut : Uncut unmarked issueToken.toList [] false (spelled (parts template)) :=
      uncut_spelled hseparate .issue rfl (List.append_nil _).symm hmem
    rw [spelled_of_parts rfl] at huncut
    rw [replaceFirst_of_uncut (by decide) huncut, written_of_issue_notMem hmem issueToken.toList]
    exact (spelled_of_parts rfl).symm

/-- The token for the address as two marks with a text between them. -/
theorem urlToken_eq : urlToken.toList = '%' :: ("URL".toList ++ ['%']) := by decide

/-- A token for the address is filled in at the first place of a token, whatever follows it. -/
theorem replaceFirst_address_spelled (hseparate : IsSeparate template) {token : Part}
    (htoken : token.isToken = true) (h : parts template = before ++ token :: after)
    (hbefore : ∀ part ∈ before, ¬part.isToken = true) (address tail : List Char) :
    replaceFirst urlToken.toList address (spelled before ++ (urlToken.toList ++ tail)) =
      spelled before ++ (address ++ tail) := by
  have huncut := uncut_spelled hseparate .address rfl h fun hmem => hbefore _ hmem rfl
  have hmark : ∃ others, spelled (token :: after) = '%' :: others := by
    rw [spelled_cons]
    cases token with
    | char c => contradiction
    | issue => exact ⟨_, rfl⟩
    | address => exact ⟨_, rfl⟩
  obtain ⟨others, hothers⟩ := hmark
  have hspelling : Part.spelling .address = '%' :: ("URL".toList ++ ['%']) := urlToken_eq
  rw [hothers, hspelling] at huncut
  apply replaceFirst_append (by decide)
  rw [urlToken_eq]
  exact huncut.of_mark (by decide) _

/-- If the first token is for the address, only this one is filled in. -/
theorem filledInTurn_of_address (hseparate : IsSeparate template)
    (hcount : (parts template).count .issue ≤ 1)
    (h : parts template = before ++ .address :: after)
    (hbefore : ∀ part ∈ before, ¬part.isToken = true) (issue address : List Char) :
    filledInTurn issue address template =
      spelled before ++ (address ++ written issue urlToken.toList after) := by
  rw [filledInTurn, replaceFirst_issue hseparate hcount, h, written_before_token hbefore]
  exact replaceFirst_address_spelled hseparate rfl h hbefore address _

/-- If the first token is for the issue, an issue that begins like a token for the address is
filled in as one. -/
theorem filledInTurn_of_issue (hseparate : IsSeparate template)
    (hcount : (parts template).count .issue ≤ 1)
    (h : parts template = before ++ .issue :: after)
    (hbefore : ∀ part ∈ before, ¬part.isToken = true) (rest address : List Char) :
    filledInTurn (urlToken.toList ++ rest) address template =
      spelled before ++ (address ++ (rest ++ spelled after)) := by
  have hlast : .issue ∉ after := by
    rw [h] at hcount
    exact notMem_of_count_le_one hcount
  have hafter : written (urlToken.toList ++ rest) urlToken.toList after = spelled after :=
    written_of_issue_notMem hlast _
  rw [filledInTurn, replaceFirst_issue hseparate hcount, h, written_before_token hbefore, hafter,
    Part.written, List.append_assoc]
  exact replaceFirst_address_spelled hseparate rfl h hbefore address _

/-- All tokens are filled in if they are one for the address and then one for the issue, or only the
first of these, or none. -/
theorem filledInTurn_of_isPrefix (hseparate : IsSeparate template)
    (h : (parts template).filter Part.isToken <+: [.address, .issue])
    (issue address : List Char) :
    filledInTurn issue address template = written issue address (parts template) := by
  have hcount : (parts template).count .issue ≤ 1 := by
    have hsub := h.sublist.count_le Part.issue
    rw [List.count_filter rfl] at hsub
    exact hsub
  cases htokens : (parts template).filter Part.isToken with
  | nil =>
    have hnone (token : Part) (htoken : token.isToken = true) : token ∉ parts template := by
      rw [← mem_filter_isToken htoken, htokens]
      exact List.not_mem_nil
    have huncut := uncut_spelled hseparate .address rfl (List.append_nil (parts template)).symm
      (hnone _ rfl)
    rw [filledInTurn, replaceFirst_issue hseparate hcount,
      written_eq_spelled (hnone _ rfl) (hnone _ rfl),
      written_eq_spelled (hnone _ rfl) (hnone _ rfl)]
    exact replaceFirst_of_uncut (by decide) huncut address
  | cons token others =>
    rw [htokens] at h
    obtain ⟨rfl, hothers⟩ := List.cons_prefix_cons.mp h
    obtain ⟨before, after, hparts, hbefore, _, hafter⟩ := List.filter_eq_cons_iff.mp htokens
    have hlast : .address ∉ after := by
      rw [← mem_filter_isToken rfl, hafter]
      intro hmem
      exact absurd (hothers.subset hmem) (by decide)
    have hrest : written issue address after = written issue urlToken.toList after :=
      written_of_address_notMem hlast _
    rw [filledInTurn_of_address hseparate hcount hparts hbefore, hparts,
      written_before_token hbefore, hrest]
    rfl

/-- If a template is filled in for all issues, it has one token for the issue at most. -/
theorem count_issue_le_one
    (h : ∀ issue, filledInTurn issue address template = written issue address (parts template)) :
    (parts template).count .issue ≤ 1 := by
  by_contra hmany
  -- An issue that is longer than everything else.
  let long := List.replicate (template.length + address.length + 1) 'x'
  have hlong : long.length = template.length + address.length + 1 := List.length_replicate
  have hissue := congrArg List.length (h long)
  have hfirst := length_replaceFirst_le issueToken.toList long template
  have hsecond := length_replaceFirst_le urlToken.toList address
    (replaceFirst issueToken.toList long template)
  rw [filledInTurn, length_written, hlong] at hissue
  have htwice := Nat.mul_le_mul_right (template.length + address.length + 1)
    (Nat.lt_of_not_le hmany)
  omega

/-- Two texts are the same if the same characters follow them, for two different characters. -/
theorem eq_of_append_cons_eq {first second : List Char} {c d : Char} (hne : c ≠ d)
    {p q r s : List Char} (hc : first ++ c :: p = second ++ c :: q)
    (hd : first ++ d :: r = second ++ d :: s) : first = second := by
  induction first generalizing second with
  | nil =>
    cases second with
    | nil => rfl
    | cons e second =>
      exact absurd ((List.cons.inj hc).1.trans (List.cons.inj hd).1.symm) hne
  | cons e first ih =>
    cases second with
    | nil => exact absurd ((List.cons.inj hc).1.symm.trans (List.cons.inj hd).1) hne
    | cons f second =>
      obtain ⟨rfl, hrestc⟩ := List.cons.inj hc
      rw [ih hrestc (List.cons.inj hd).2]

theorem isPrefix_issue {tokens : List Part} (h : ∀ token ∈ tokens, token = .issue)
    (hcount : tokens.count .issue ≤ 1) : tokens <+: [.issue] := by
  have hreplicate := List.eq_replicate_of_mem h
  rw [hreplicate, List.count_replicate_self] at hcount
  rw [hreplicate]
  rcases Nat.le_one_iff_eq_zero_or_eq_one.mp hcount with hzero | hone
  · rw [hzero]
    exact List.nil_prefix
  · rw [hone]
    exact List.prefix_rfl

/-- If a template is filled in for all issues, and the address is not its own token, then no token
for the address is left. -/
theorem isPrefix_of_filledInTurn (hseparate : IsSeparate template)
    (haddress : address ≠ urlToken.toList)
    (h : ∀ issue, filledInTurn issue address template = written issue address (parts template)) :
    (parts template).filter Part.isToken <+: [.address, .issue] := by
  have hcount := count_issue_le_one h
  cases htokens : (parts template).filter Part.isToken with
  | nil => exact List.nil_prefix
  | cons token others =>
    obtain ⟨before, after, hparts, hbefore, htoken, hafter⟩ := List.filter_eq_cons_iff.mp htokens
    cases token with
    | char c => contradiction
    | address =>
      have hlast : .address ∉ after := by
        intro hmem
        have hissue := h []
        rw [filledInTurn_of_address hseparate hcount hparts hbefore, hparts,
          written_before_token hbefore] at hissue
        have hrest := List.append_cancel_left (List.append_cancel_left hissue)
        exact haddress (eq_of_written_eq hmem hrest).symm
      have hissues : ∀ other ∈ others, other = .issue := by
        intro other hother
        rw [← hafter, List.mem_filter] at hother
        cases other with
        | char c => exact absurd hother.2 Bool.false_ne_true
        | issue => rfl
        | address => exact absurd hother.1 hlast
      rw [← List.count_filter (p := Part.isToken) rfl, htokens] at hcount
      exact List.cons_prefix_cons.mpr ⟨rfl, isPrefix_issue hissues hcount⟩
    | issue =>
      have hissue (c : Char) : address ++ c :: spelled after =
          urlToken.toList ++ c :: written (urlToken.toList ++ [c]) address after := by
        have heq := h (urlToken.toList ++ [c])
        rw [filledInTurn_of_issue hseparate hcount hparts hbefore, hparts,
          written_before_token hbefore, Part.written, List.append_assoc] at heq
        exact List.append_cancel_left heq
      have hdistinct : 'x' ≠ 'y' := by decide
      exact absurd (eq_of_append_cons_eq hdistinct (hissue 'x') (hissue 'y')) haddress

theorem filledInTurn_iff (hseparate : IsSeparate template) (address : List Char) :
    (∀ issue, filledInTurn issue address template = written issue address (parts template)) ↔
      (parts template).filter Part.isToken <+: [.address, .issue] ∨
        address = urlToken.toList ∧ (parts template).count .issue ≤ 1 := by
  constructor
  · intro h
    by_cases haddress : address = urlToken.toList
    · exact Or.inr ⟨haddress, count_issue_le_one h⟩
    · exact Or.inl (isPrefix_of_filledInTurn hseparate haddress h)
  · rintro (hfirst | ⟨rfl, hcount⟩) issue
    · exact filledInTurn_of_isPrefix hseparate hfirst issue address
    · rw [filledInTurn, replaceFirst_self, replaceFirst_issue hseparate hcount]

/-- No token for the address begins where an ordinary issue has taken the place of a token. -/
theorem uncut_written (hseparate : IsSeparate template) (h : parts template = before ++ after)
    (haddress : .address ∉ before) (hcount : before.count .issue ≤ 1) {issue : List Char}
    (hmark : '%' ∉ issue) (hword : ∃ c ∈ issue, c ∉ urlToken.toList) :
    Uncut unmarked urlToken.toList (spelled after) false
      (written issue urlToken.toList before) := by
  by_cases hmem : .issue ∈ before
  · obtain ⟨first, last, rfl, hfirst⟩ := List.eq_append_cons_of_mem hmem
    have hlast := notMem_of_count_le_one hcount
    rw [List.mem_append, List.mem_cons, not_or, not_or] at haddress
    obtain ⟨hfirstAddress, _, hlastAddress⟩ := haddress
    rw [List.append_assoc] at h
    have hbefore := uncut_spelled hseparate .address rfl h hfirstAddress
    -- What follows the token for the issue is a template of its own.
    have hrest : parts template = (first ++ [.issue]) ++ (last ++ after) := by
      rw [h, List.append_assoc]
      rfl
    have hspelled : spelled (first ++ [.issue]) ++ spelled (last ++ after) = template := by
      rw [← spelled_append]
      exact spelled_of_parts hrest
    have hafter := uncut_spelled (hspelled ▸ hseparate).of_append .address rfl
      (parts_spelled_of_append hrest) hlastAddress
    rw [written_append, written_cons, written_eq_spelled hfirst hfirstAddress,
      written_eq_spelled hlast hlastAddress]
    refine uncut_unmarked_append.mpr ⟨?_, uncut_unmarked_append.mpr ⟨?_, hafter⟩⟩
    · have hend : ∃ c ∈ issue, c ∉ "%URL".toList ++ ['%'] := hword
      rw [List.append_assoc]
      exact Uncut.append_word hmark hend _ hbefore.alone
    · have hstart : urlToken.toList.head? = some '%' := rfl
      exact uncut_of_notMem hstart hmark
  · rw [written_eq_spelled hmem haddress]
    exact uncut_spelled hseparate .address rfl h haddress

/-- A template with each token once at most is filled in for ordinary issues. -/
theorem filledInTurn_of_nodup (hseparate : IsSeparate template)
    (h : ((parts template).filter Part.isToken).Nodup) {issue : List Char} (hmark : '%' ∉ issue)
    (hword : ∃ c ∈ issue, c ∉ urlToken.toList) (address : List Char) :
    filledInTurn issue address template = written issue address (parts template) := by
  have hcount (token : Part) (htoken : token.isToken = true) :
      (parts template).count token ≤ 1 := by
    rw [← List.count_filter (p := Part.isToken) htoken]
    exact List.nodup_iff_count_le_one.mp h token
  rw [filledInTurn, replaceFirst_issue hseparate (hcount _ rfl)]
  by_cases hmem : .address ∈ parts template
  · obtain ⟨before, after, hparts, hbefore⟩ := List.eq_append_cons_of_mem hmem
    have hcountBefore (token : Part) (htoken : token.isToken = true) :
        (before ++ .address :: after).count token ≤ 1 := by
      rw [← hparts]
      exact hcount token htoken
    have hafter := notMem_of_count_le_one (hcountBefore .address rfl)
    have hissue : before.count .issue ≤ 1 :=
      Nat.le_trans ((List.sublist_append_left _ _).count_le Part.issue) (hcountBefore .issue rfl)
    have huncut := uncut_written hseparate hparts hbefore hissue hmark hword
    have hsame : written issue address before = written issue urlToken.toList before :=
      written_of_address_notMem hbefore _
    have hrest : written issue address after = written issue urlToken.toList after :=
      written_of_address_notMem hafter _
    rw [hparts, written_append, written_append, written_cons, written_cons, hsame, hrest]
    apply replaceFirst_append (by decide)
    rw [urlToken_eq] at huncut ⊢
    exact huncut.of_mark (by decide) _
  · have huncut := uncut_written hseparate (List.append_nil _).symm hmem (hcount _ rfl) hmark hword
    rw [replaceFirst_of_uncut (by decide) huncut]
    exact written_of_address_notMem hmem _

end Passes

/-- A link is filled in for the issue and then for the address. Without an address there is no token
for it. -/
theorem link_eq_filledInTurn {linker : Linker} {actionSystem : Option String} {template : String}
    (h : linker.template? actionSystem = some template) (issue : String) :
    linker.link issue actionSystem =
      some (String.ofList
        (filledInTurn issue.toList (linker.url.getD urlToken).toList template.toList)) := by
  rw [link, h, Option.map_some, filledInTurn]
  cases hurl : linker.url with
  | some url => rw [filled, Option.getD_some]
  | none => rw [filled, Option.getD_none, replaceFirst_self]

/-- Links are templates with all tokens filled in at once, whatever the issue is, exactly if the
tokens are those for the address and the issue in this order, or only the first of them, or none;
or if there is no address and one token for the issue at most. For ordinary issues it is enough that
each token is there once at most. -/
theorem link_eq_substituted_iff {linker : Linker} {actionSystem : Option String} {template : String}
    (h : linker.template? actionSystem = some template) (hseparate : IsSeparate template.toList) :
    ((∀ issue : String,
      linker.link issue actionSystem =
        some (substituted template issue (linker.url.getD urlToken))) ↔
      tokens template <+: [.address, .issue] ∨
        linker.url.getD urlToken = urlToken ∧ (tokens template).count .issue ≤ 1) ∧
      ∀ issue : String, IsOrdinary issue → (tokens template).Nodup →
        linker.link issue actionSystem =
          some (substituted template issue (linker.url.getD urlToken)) := by
  have hlink (issue : String) : linker.link issue actionSystem =
      some (substituted template issue (linker.url.getD urlToken)) ↔
        filledInTurn issue.toList (linker.url.getD urlToken).toList template.toList =
          written issue.toList (linker.url.getD urlToken).toList (parts template.toList) := by
    rw [link_eq_filledInTurn h, substituted, Option.some_inj, String.ofList_inj]
  constructor
  · have hcount : (tokens template).count .issue = (parts template.toList).count .issue :=
      List.count_filter rfl
    rw [hcount, ← String.toList_inj, tokens, ← filledInTurn_iff hseparate]
    constructor
    · intro hall issue
      have hissue := (hlink (String.ofList issue)).mp (hall _)
      rwa [String.toList_ofList] at hissue
    · intro hall issue
      exact (hlink issue).mpr (hall issue.toList)
  · intro issue hordinary hnodup
    exact (hlink issue).mpr (filledInTurn_of_nodup hseparate hnodup hordinary.1 hordinary.2 _)

def sampleLinker : Linker :=
  new [("Trac", "%URL%/t/%ISSUE%")] (some "https://example.org/p/x") (some "trac")

theorem link_eq_substituted_sample :
    sampleLinker.template? none = some "%URL%/t/%ISSUE%" ∧
      IsSeparate "%URL%/t/%ISSUE%".toList ∧ IsOrdinary "7" ∧
      (∀ issue : String, sampleLinker.link issue none =
        some (substituted "%URL%/t/%ISSUE%" issue "https://example.org/p")) ∧
      sampleLinker.link "7" none =
        some (substituted "%URL%/t/%ISSUE%" "7" "https://example.org/p") := by
  have htemplate : sampleLinker.template? none = some "%URL%/t/%ISSUE%" := by decide +kernel
  have hseparate : IsSeparate "%URL%/t/%ISSUE%".toList := by decide +kernel
  have hordinary : IsOrdinary "7" := ⟨by decide, '7', by decide, by decide⟩
  have htokens : tokens "%URL%/t/%ISSUE%" = [.address, .issue] := by decide +kernel
  have hurl : sampleLinker.url.getD urlToken = "https://example.org/p" := by decide +kernel
  obtain ⟨hall, hone⟩ := link_eq_substituted_iff htemplate hseparate
  rw [htokens, hurl] at hall hone
  exact ⟨htemplate, hseparate, hordinary, hall.mpr (Or.inl List.prefix_rfl),
    hone "7" hordinary (by decide)⟩

/-- The second token for the issue is left. -/
theorem link_ne_substituted : ¬∀ (linker : Linker) (issue template : String)
    (actionSystem : Option String), linker.template? actionSystem = some template →
      IsSeparate template.toList →
        linker.link issue actionSystem =
          some (substituted template issue (linker.url.getD urlToken)) := by
  intro h
  have hlink := h
    (new [("Trac", "%URL%/t/%ISSUE%#c-%ISSUE%")] (some "https://example.org/p/x") (some "trac"))
    "7" "%URL%/t/%ISSUE%#c-%ISSUE%" none (by decide +kernel) (by decide +kernel)
  revert hlink
  decide +kernel

end Linker

end ReleaseNotes
