import ReleaseNotes.Http.Server
import ReleaseNotes.Proofs.Journal

/-!
Runs that ask a server. One that makes a single request has its value from the reply to it. One
that goes through several steps makes the request of each, and goes on only if the reply was what
the step needs; so all steps but the last one have passed, and the last one as well if the run
succeeds.
-/

namespace ReleaseNotes

open Http

variable {α β : Type}

namespace Http

def Reply.answer? : Reply → Option Answer
  | .answered answer => some answer
  | _ => none

def Reply.read? (read : String → Option α) (reply : Reply) : Option α :=
  reply.answer?.bind fun answer => if answer.isSuccess then read answer.body else none

theorem Reply.read?_eq_some_iff {read : String → Option α} {reply : Reply} {value : α} :
    reply.read? read = some value ↔
      ∃ answer, reply = .answered answer ∧ answer.isSuccess = true ∧
        read answer.body = some value := by
  cases reply with
  | answered answer => simp [read?, answer?]
  | broken => simp [read?, answer?]
  | unreachable => simp [read?, answer?]

def Server.made (server : Server) (request : Request) : List Request :=
  if server.replyTo request = .unreachable then [] else [request]

/-- A request with a reply that can be read was made: a server that is out of reach has none. -/
theorem Server.made_of_read? {server : Server} {request : Request} {read : String → Option α}
    (h : ((server.replyTo request).read? read).isSome) : server.made request = [request] := by
  apply if_neg
  intro hunreachable
  rw [hunreachable] at h
  contradiction

/-- A server has a reply of its own for every request that it answers with success. -/
theorem Server.mem_replies_of_read? {server : Server} {request : Request}
    {read : String → Option α} (h : ((server.replyTo request).read? read).isSome) :
    (request.method, request.url) ∈ server.replies.map Prod.fst := by
  obtain ⟨value, hvalue⟩ := Option.isSome_iff_exists.mp h
  obtain ⟨answer, hreply, hsuccess, _⟩ := Reply.read?_eq_some_iff.mp hvalue
  unfold Server.replyTo at hreply
  split at hreply
  · cases hlookup : server.replies.lookup (request.method, request.url) with
    | none =>
      rw [hlookup] at hreply
      obtain rfl := Reply.answered.inj hreply
      exact absurd hsuccess (by decide)
    | some reply => exact List.mem_map_of_mem (mem_of_lookup_eq_some hlookup)
  · contradiction

end Http

namespace Journaled

section Yielding

variable {run : Journaled α} {requests : List Request} {value? : Option α}

/-- A run makes these requests, and its value is this one if it has any. -/
structure Yields (run : Journaled α) (requests : List Request) (value? : Option α) : Prop where
  requests_eq : run.requests = requests
  ok_iff : ∀ value, run.outcome = .ok value ↔ value? = some value

theorem yields_pure (value : α) : (pure value : Journaled α).Yields [] (some value) where
  requests_eq := rfl
  ok_iff other := by rw [outcome_pure_eq_ok_iff, Option.some.injEq]

theorem yields_failWith (failure : Failure) :
    (failWith failure : Journaled α).Yields [] none where
  requests_eq := rfl
  ok_iff _ := ⟨nofun, nofun⟩

theorem yields_ofExcept (value : Except Cause α) : (ofExcept value).Yields [] value.toOption where
  requests_eq := requests_ofExcept value
  ok_iff other := by
    rw [outcome_ofExcept_eq_ok_iff]
    cases value with
    | error cause => exact ⟨nofun, nofun⟩
    | ok value => rw [Except.ok.injEq, Except.toOption, Option.some.injEq]

theorem yields_send (server : Server) (context : Context) (request : Request) :
    (server.send context request).Yields (server.made request)
      (server.replyTo request).answer? := by
  unfold Server.send Server.made
  cases server.replyTo request with
  | answered answer => exact ⟨rfl, fun _ => by simp [Reply.answer?]⟩
  | broken => exact ⟨rfl, fun _ => ⟨nofun, nofun⟩⟩
  | unreachable => exact ⟨rfl, fun _ => ⟨nofun, nofun⟩⟩

theorem Yields.logAll_bind (h : run.Yields requests value?) (entries : List Entry) :
    (logAll entries >>= fun _ => run).Yields requests value? where
  requests_eq := (requests_logAll_bind entries run).trans h.requests_eq
  ok_iff := h.ok_iff

theorem Yields.log_bind (h : run.Yields requests value?) (level : Level) (text : String) :
    (log level text >>= fun _ => run).Yields requests value? where
  requests_eq := h.requests_eq
  ok_iff := h.ok_iff

/-- What is done with a value makes no more requests. -/
theorem Yields.bind {next : α → Journaled β} {later? : α → Option β}
    (h : run.Yields requests value?) (hnext : ∀ value, (next value).Yields [] (later? value)) :
    (run >>= next).Yields requests (value?.bind later?) := by
  constructor
  · cases hrun : run.outcome with
    | error failure => rw [requests_bind_of_error hrun, h.requests_eq]
    | ok value =>
      rw [requests_bind_of_ok hrun, h.requests_eq, (hnext value).requests_eq, List.append_nil]
  · intro result
    rw [outcome_bind_eq_ok_iff, Option.bind_eq_some_iff]
    simp only [h.ok_iff, (hnext _).ok_iff]

/-- What a run makes and yields can be worked out step by step. -/
theorem Yields.bind_of_some {value : α} {next : α → Journaled β} {later : List Request}
    {later? : Option β} (h : run.Yields requests (some value))
    (hnext : (next value).Yields later later?) :
    (run >>= next).Yields (requests ++ later) later? := by
  have hvalue : run.outcome = .ok value := (h.ok_iff value).mpr rfl
  constructor
  · rw [requests_bind_of_ok hvalue, h.requests_eq, hnext.requests_eq]
  · intro result
    rw [bind_of_ok hvalue]
    exact hnext.ok_iff result

end Yielding

section Proceeding

variable {σ : Type} {request : σ → Request} {passes : σ → Prop} {made later : List σ}
  {run : Journaled α} {next : α → Journaled β}

/-- A run makes the requests of some steps. All but the last one have passed, and the last one as
well if the run succeeds. -/
structure Proceeds (request : σ → Request) (passes : σ → Prop) (made : List σ)
    (run : Journaled α) : Prop where
  requests_eq : run.requests = made.map request
  passes_before : ∀ step ∈ made.dropLast, passes step
  passes_of_ok : ∀ value, run.outcome = .ok value → ∀ step ∈ made, passes step

theorem proceeds_of_requests_eq_nil (h : run.requests = []) :
    Proceeds request passes [] run where
  requests_eq := h
  passes_before := by simp
  passes_of_ok := by simp

/-- A run that fails ends there, whatever was to come next. -/
theorem Proceeds.bind_of_error (h : Proceeds request passes made run) {failure : Failure}
    (hfailed : run.outcome = .error failure) :
    Proceeds request passes made (run >>= next) where
  requests_eq := (requests_bind_of_error hfailed next).trans h.requests_eq
  passes_before := h.passes_before
  passes_of_ok value hvalue := by
    rw [Journaled.bind_of_error hfailed] at hvalue
    contradiction

theorem Proceeds.bind_of_ok (h : Proceeds request passes made run) {value : α}
    (hvalue : run.outcome = .ok value) (hnext : Proceeds request passes later (next value)) :
    Proceeds request passes (made ++ later) (run >>= next) := by
  have hmade := h.passes_of_ok value hvalue
  constructor
  · rw [requests_bind_of_ok hvalue, h.requests_eq, hnext.requests_eq, List.map_append]
  · intro step hstep
    by_cases hlater : later = []
    · rw [hlater, List.append_nil] at hstep
      exact hmade step (List.dropLast_subset made hstep)
    · rw [List.dropLast_append_of_ne_nil hlater, List.mem_append] at hstep
      rcases hstep with hfirst | hlast
      · exact hmade step hfirst
      · exact hnext.passes_before step hlast
  · intro result hresult step hstep
    rw [Journaled.bind_of_ok hvalue] at hresult
    rcases List.mem_append.mp hstep with hfirst | hlast
    · exact hmade step hfirst
    · exact hnext.passes_of_ok result hresult step hlast

theorem exists_proceeds_bind (h : ∃ made, Proceeds request passes made run)
    (hnext : ∀ value, run.outcome = .ok value →
      ∃ later, Proceeds request passes later (next value)) :
    ∃ made, Proceeds request passes made (run >>= next) := by
  obtain ⟨made, hmade⟩ := h
  cases hrun : run.outcome with
  | error failure => exact ⟨made, hmade.bind_of_error hrun⟩
  | ok value =>
    obtain ⟨later, hlater⟩ := hnext value hrun
    exact ⟨made ++ later, hmade.bind_of_ok hrun hlater⟩

/-- A request that is followed by another one, or that a run with a value has made, belongs to a
step that has passed. -/
theorem Proceeds.exists_passed (h : Proceeds request passes made run)
    {before after : List Request} {asked : Request}
    (heq : run.requests = before ++ asked :: after)
    (hgoes : after ≠ [] ∨ ∃ value, run.outcome = .ok value) :
    ∃ step, request step = asked ∧ passes step := by
  rw [h.requests_eq, List.map_eq_append_iff] at heq
  obtain ⟨first, rest, rfl, _, hrest⟩ := heq
  obtain ⟨step, last, rfl, rfl, rfl⟩ := List.map_eq_cons_iff.mp hrest
  refine ⟨step, rfl, ?_⟩
  rcases hgoes with hafter | ⟨value, hvalue⟩
  · have hlast : last ≠ [] := by
      rintro rfl
      exact hafter rfl
    apply h.passes_before
    rw [List.dropLast_append_of_ne_nil (List.cons_ne_nil step last),
      List.dropLast_cons_of_ne_nil hlast]
    exact List.mem_append_right first List.mem_cons_self
  · exact h.passes_of_ok value hvalue step (List.mem_append_right first List.mem_cons_self)

/-- A run goes through given steps in order. It makes the requests of all of them up to the first
that does not pass, and succeeds exactly if all of them pass. -/
structure Performs (request : σ → Request) (passes : σ → Prop) (steps : List σ)
    (run : Journaled α) : Prop where
  exists_made : ∃ made, made <+: steps ∧ Proceeds request passes made run ∧
    ∀ value, run.outcome = .ok value → made = steps
  ok_iff : (∃ value, run.outcome = .ok value) ↔ ∀ step ∈ steps, passes step

theorem performs_nil {value? : Option α} (h : run.Yields [] value?) (hsome : value?.isSome) :
    Performs request passes [] run where
  exists_made := ⟨[], List.prefix_rfl, proceeds_of_requests_eq_nil h.requests_eq, fun _ _ => rfl⟩
  ok_iff := by
    obtain ⟨value, hvalue⟩ := Option.isSome_iff_exists.mp hsome
    have hok : ∃ value, run.outcome = .ok value := ⟨value, (h.ok_iff value).mpr hvalue⟩
    simp [hok]

/-- A single step passes exactly if the answer to its request gives the run a value. -/
theorem Yields.performs {server : Server} {step : σ} {later? : Answer → Option α}
    (h : run.Yields (server.made (request step))
      ((server.replyTo (request step)).answer?.bind later?))
    (hpasses : ((server.replyTo (request step)).answer?.bind later?).isSome ↔ passes step) :
    Performs request passes [step] run := by
  have hok : (∃ value, run.outcome = .ok value) ↔ passes step := by
    rw [← hpasses, Option.isSome_iff_exists]
    simp only [h.ok_iff]
  refine ⟨?_, by rwa [List.forall_mem_singleton]⟩
  by_cases hunreachable : server.replyTo (request step) = .unreachable
  · refine ⟨[], List.nil_prefix, proceeds_of_requests_eq_nil ?_, fun value hvalue => ?_⟩
    · rw [h.requests_eq, Server.made, if_pos hunreachable]
    · rw [h.ok_iff, hunreachable] at hvalue
      contradiction
  · refine ⟨[step], List.prefix_rfl, ⟨?_, by simp, fun value hvalue => ?_⟩, fun _ _ => rfl⟩
    · rw [h.requests_eq, Server.made, if_neg hunreachable, List.map_singleton]
    · exact List.forall_mem_singleton.mpr (hok.mp ⟨value, hvalue⟩)

/-- Runs that go through their steps one after another go through all the steps. -/
theorem Performs.bind {steps : List σ} (h : Performs request passes steps run)
    (hnext : ∀ value, run.outcome = .ok value → Performs request passes later (next value)) :
    Performs request passes (steps ++ later) (run >>= next) := by
  obtain ⟨made, hinitial, hmade, hall⟩ := h.exists_made
  cases hrun : run.outcome with
  | error failure =>
    have hbind : ∀ value, (run >>= next).outcome ≠ .ok value := by
      intro value hvalue
      rw [bind_of_error hrun] at hvalue
      contradiction
    have hsteps : made <+: steps ++ later := hinitial.trans (List.prefix_append steps later)
    refine ⟨⟨made, hsteps, hmade.bind_of_error hrun, ?_⟩, ?_⟩
    · exact fun value hvalue => absurd hvalue (hbind value)
    · refine ⟨fun ⟨value, hvalue⟩ => absurd hvalue (hbind value), fun hpasses => ?_⟩
      obtain ⟨value, hvalue⟩ := h.ok_iff.mpr fun step hstep =>
        hpasses step (List.mem_append_left later hstep)
      rw [hrun] at hvalue
      contradiction
  | ok value =>
    obtain rfl := hall value hrun
    obtain ⟨others, hothers, hproceeds, hrest⟩ := (hnext value hrun).exists_made
    refine ⟨⟨made ++ others, (List.prefix_append_right_inj made).mpr hothers,
      hmade.bind_of_ok hrun hproceeds, ?_⟩, ?_⟩
    · intro result hresult
      rw [bind_of_ok hrun] at hresult
      rw [hrest result hresult]
    · have hfirst := h.ok_iff.mp ⟨value, hrun⟩
      rw [bind_of_ok hrun, (hnext value hrun).ok_iff, List.forall_mem_append]
      exact ⟨fun hlast => ⟨hfirst, hlast⟩, And.right⟩

/-- What is done with a value at the end takes no step of its own. -/
theorem Performs.bind_of_yields {steps : List σ} {last : α → β}
    (h : Performs request passes steps run)
    (hnext : ∀ value, (next value).Yields [] (some (last value))) :
    Performs request passes steps (run >>= next) := by
  have hbind := h.bind fun value _ => performs_nil (hnext value) rfl
  rwa [List.append_nil] at hbind

end Proceeding

end Journaled

end ReleaseNotes
