import FingerprintSet.Error
import FingerprintSet.Storage.Tree

/-!
# Tasks

Work on a volume that fails with one of the library's errors, and the same work around a state
of its own.  In both, what was done before a failure stays done: neither the volume nor the
state goes back.
-/

namespace FingerprintSet

open Storage

/-- Work on a volume. -/
abbrev Task := ExceptT Error (StateM Volume)

/-- Work on a volume around a state. -/
abbrev Keeping (σ : Type) := ExceptT Error (StateT σ (StateM Volume))

/-- Work on a volume is work around any state, which it leaves alone. -/
instance (priority := low) liftTask {σ : Type} : MonadLift Task (Keeping σ) where
  monadLift task := ExceptT.mk (StateT.lift task.run)

/-- Steps on a volume as part of an activity, which names their failure. -/
def Activity.run {α : Type} (activity : Activity) (steps : Access α) : Task α :=
  ExceptT.adapt (Error.storage activity) steps

/-- A result as a task that takes no steps. -/
def Task.ofExcept {α : Type} (result : Except Error α) : Task α :=
  ExceptT.mk (pure result)

/-- A result as work that leaves volume and state alone. -/
def Keeping.ofExcept {σ α : Type} (result : Except Error α) : Keeping σ α :=
  ExceptT.mk (pure result)

/-- A part of a state, and the state with nothing in its place.  This is done in one step
before anything else, so that the part has no second owner and can change in place. -/
@[noinline] def detach {σ τ : Type} [Inhabited τ] (part : σ → τ) (put : τ → σ → σ) (state : σ) :
    τ × σ :=
  (part state, put default state)

/-- Work around a part of a state.  The part is taken out for as long as the work lasts. -/
def Keeping.onPart {σ τ α : Type} [Inhabited τ] (part : σ → τ) (put : τ → σ → σ)
    (work : Keeping τ α) : Keeping σ α :=
  ExceptT.mk fun state => do
    let (inner, state) := detach part put state
    let (result, inner) ← work inner
    pure (result, put inner state)

/-- Work around a state with the outcome, failure or not, as its result. -/
def Keeping.outcome {σ α : Type} (work : Keeping σ α) : Keeping σ (Except Error α) :=
  ExceptT.mk fun state => do
    let (result, state) ← work state
    pure (.ok result, state)

/-- Do work around a state from a start and keep the state it ends with. -/
def Keeping.build {σ α : Type} (state : σ) (work : Keeping σ α) : Task σ :=
  ExceptT.mk do
    let (result, state) ← work state
    pure (result.map fun _ => state)

end FingerprintSet
