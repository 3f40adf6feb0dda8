import ReleaseNotes.Journal
import ReleaseNotes.Proofs.Traversal

/-!
When a computation with a journal succeeds, and which requests it makes. A sequence succeeds exactly
if each of its parts does, and makes no requests after a part that fails.
-/

namespace ReleaseNotes

variable {α β : Type}

namespace Journaled

theorem outcome_bind_eq_ok_iff {run : Journaled α} {next : α → Journaled β} {result : β} :
    (run >>= next).outcome = .ok result ↔
      ∃ value, run.outcome = .ok value ∧ (next value).outcome = .ok result := by
  cases h : run.outcome with
  | error failure => simp [bind_of_error h]
  | ok value => simp [bind_of_ok h]

theorem outcome_pure_eq_ok_iff {value result : α} :
    (pure value : Journaled α).outcome = .ok result ↔ value = result := by
  rw [outcome_pure, Except.ok.injEq]

theorem outcome_eq_ok_iff {run : Journaled α} {result : α} :
    run.outcome = .ok result ↔ run.outcome.toOption = some result := by
  cases run.outcome <;> simp [Except.toOption]

/-- A context changes what a failure says, and nothing else. -/
theorem outcome_within_eq_ok_iff {context : Context} {run : Journaled α} {result : α} :
    (run.within context).outcome = .ok result ↔ run.outcome = .ok result := by
  cases h : run.outcome with
  | error failure =>
    have hfailed : (run.within context).outcome = .error (failure.within context) := by
      rw [within, h]
      rfl
    rw [hfailed]
    exact ⟨nofun, nofun⟩
  | ok value =>
    have hdone : (run.within context).outcome = .ok value := by
      rw [within, h]
      rfl
    rw [hdone]

theorem outcome_ofExcept_eq_ok_iff {value : Except Cause α} {result : α} :
    (ofExcept value).outcome = .ok result ↔ value = .ok result := by
  cases value <;> simp [ofExcept, succeed, fail]

/-- What is logged has no part in the outcome. -/
theorem outcome_logAll_bind (entries : List Entry) (next : Journaled α) :
    (logAll entries >>= fun _ => next).outcome = next.outcome := rfl

/-- Where a run is cut into parts does not matter. -/
theorem bind_assoc {γ : Type} (run : Journaled α) (next : α → Journaled β)
    (last : β → Journaled γ) :
    (run >>= next) >>= last = run >>= fun value => next value >>= last := by
  cases hrun : run.outcome with
  | error failure => rw [bind_of_error hrun, bind_of_error hrun, bind_of_error rfl]
  | ok value =>
    rw [bind_of_ok hrun, bind_of_ok hrun]
    cases hnext : (next value).outcome with
    | error failure => rw [bind_of_error rfl, bind_of_error hnext]
    | ok other => rw [bind_of_ok rfl, bind_of_ok hnext, List.append_assoc]

section Requests

theorem requests_ofExcept (value : Except Cause α) : (ofExcept value).requests = [] := by
  cases value <;> rfl

theorem requests_logAll (entries : List Entry) : (logAll entries).requests = [] := by
  induction entries with
  | nil => rfl
  | cons entry entries ih => exact ih

/-- No request is made after a failure. -/
theorem requests_bind_of_error {run : Journaled α} {failure : Failure}
    (h : run.outcome = .error failure) (next : α → Journaled β) :
    (run >>= next).requests = run.requests := by
  rw [bind_of_error h]
  rfl

theorem requests_bind_of_ok {run : Journaled α} {value : α} (h : run.outcome = .ok value)
    (next : α → Journaled β) :
    (run >>= next).requests = run.requests ++ (next value).requests := by
  rw [bind_of_ok h]
  exact List.filterMap_append

theorem requests_logAll_bind (entries : List Entry) (next : Journaled α) :
    (logAll entries >>= fun _ => next).requests = next.requests := by
  rw [requests_bind_of_ok rfl, requests_logAll, List.nil_append]

end Requests

end Journaled

end ReleaseNotes
