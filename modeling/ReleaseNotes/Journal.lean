import ReleaseNotes.Failure
import ReleaseNotes.Http.Message

/-!
Computations that keep a journal. Whatever the outcome is, the journal lists in order what was
logged, what was printed and which requests were made; a failure ends the computation.
-/

namespace ReleaseNotes

inductive Level where
  | error
  | warning
  | info
deriving DecidableEq, Repr

structure Entry where
  level : Level
  text : String
deriving DecidableEq, Repr

inductive Event where
  | logged (entry : Entry)
  | printed (line : String)
  | requested (request : Http.Request)

/-- An outcome with the events that led to it. -/
structure Journaled (α : Type) where
  events : List Event
  outcome : Except Failure α

namespace Journaled

variable {α β : Type}

def succeed (value : α) : Journaled α := ⟨[], .ok value⟩

def fail (cause : Cause) : Journaled α := ⟨[], .error (.ofCause cause)⟩

def failWith (failure : Failure) : Journaled α := ⟨[], .error failure⟩

/-- What follows a success adds to its journal. Nothing follows a failure. -/
def andThen (first : Journaled α) (next : α → Journaled β) : Journaled β :=
  match first.outcome with
  | .error failure => ⟨first.events, .error failure⟩
  | .ok value =>
    let rest := next value
    ⟨first.events ++ rest.events, rest.outcome⟩

instance : Monad Journaled where
  pure := succeed
  bind := andThen

def note (event : Event) : Journaled Unit := ⟨[event], .ok ()⟩

def log (level : Level) (text : String) : Journaled Unit := note (.logged ⟨level, text⟩)

def logAll (entries : List Entry) : Journaled Unit := ⟨entries.map .logged, .ok ()⟩

def ofExcept : Except Cause α → Journaled α
  | .ok value => succeed value
  | .error cause => fail cause

def within (context : Context) (run : Journaled α) : Journaled α :=
  ⟨run.events, run.outcome.mapError (·.within context)⟩

def entries (run : Journaled α) : List Entry :=
  run.events.filterMap fun
    | .logged entry => some entry
    | _ => none

def requests (run : Journaled α) : List Http.Request :=
  run.events.filterMap fun
    | .requested request => some request
    | _ => none

@[simp] theorem events_pure (value : α) : (pure value : Journaled α).events = [] := rfl

@[simp] theorem outcome_pure (value : α) : (pure value : Journaled α).outcome = .ok value := rfl

theorem bind_of_error {run : Journaled α} {failure : Failure} (h : run.outcome = .error failure)
    (next : α → Journaled β) : run >>= next = ⟨run.events, .error failure⟩ := by
  simp only [Bind.bind, andThen, h]

theorem bind_of_ok {run : Journaled α} {value : α} (h : run.outcome = .ok value)
    (next : α → Journaled β) :
    run >>= next = ⟨run.events ++ (next value).events, (next value).outcome⟩ := by
  simp only [Bind.bind, andThen, h]

end Journaled

end ReleaseNotes
