import FingerprintSet.Proofs.Storage.Keeping

/-!
# Work that only watches

Opening files and reading them leaves the volume as it is, whatever it is like and whatever it
refuses, except that time passes.
-/

namespace FingerprintSet

open Storage Volume

namespace Storage

variable {ε δ σ τ α β : Type}

/-- A function leaves the volume as it is, at a later time. -/
def Watches (step : Volume → α × Volume) : Prop :=
  ∀ volume, ∃ clock, (step volume).2 = { volume with clock }

/-- Work around a state leaves the volume as it is. -/
def WatchesKeeping (work : Keeping σ α) : Prop :=
  ∀ state, Watches (work state)

namespace Watches

theorem pure (a : α) : Watches fun volume => (a, volume) :=
  fun volume => ⟨volume.clock, rfl⟩

theorem andThen {step : Volume → α × Volume} {whole : Volume → β × Volume} (watches : Watches step)
    (next : α → Volume → β × Volume)
    (split : ∀ volume, whole volume = next (step volume).1 (step volume).2)
    (goesOn : ∀ a, Watches (next a)) : Watches whole := by
  intro volume
  obtain ⟨clock, here⟩ := watches volume
  obtain ⟨later, there⟩ := goesOn (step volume).1 (step volume).2
  exact ⟨later, by rw [split, there, here]⟩

theorem bind {step : StateM Volume α} {next : α → StateM Volume β} (first : Watches step)
    (second : ∀ a, Watches (next a)) : Watches (step >>= next) :=
  first.andThen next (fun _ => rfl) second

/-! Work that can fail. -/

variable {work : ExceptT ε (StateM Volume) α}

theorem bindTask {next : α → ExceptT ε (StateM Volume) β} (first : Watches work)
    (second : ∀ a, Watches (next a)) : Watches (work >>= next) :=
  first.andThen (ExceptT.bindCont next) (fun _ => rfl) fun
    | .ok a => second a
    | .error _ => pure _

theorem adapt {steps : ExceptT δ (StateM Volume) α} {rename : δ → ε} (watches : Watches steps) :
    Watches (ExceptT.adapt rename steps : ExceptT ε (StateM Volume) α) :=
  watches.andThen (fun result volume => (result.mapError rename, volume)) (fun _ => rfl)
    fun _ => pure _

theorem liftThen {step : StateM Volume α} {next : α → ExceptT ε (StateM Volume) β}
    (first : Watches step) (second : ∀ a, Watches (next a)) :
    Watches ((liftM step : ExceptT ε (StateM Volume) α) >>= next) :=
  first.andThen next (fun _ => rfl) second

/-- A step that comes back to the volume it was given. -/
theorem attempt {step : Volume → Except Failure (α × Volume)}
    (same : ∀ volume a after, step volume = .ok (a, after) → after = volume) :
    Watches (Storage.attempt step) := by
  intro volume
  refine ⟨volume.clock + 1, ?_⟩
  rw [attempt_apply]
  cases volume.faults volume.clock with
  | some errno => rfl
  | none =>
      dsimp only
      cases ended : step volume.ticked with
      | error failure => rfl
      | ok result => exact same volume.ticked result.1 result.2 ended

end Watches

namespace WatchesKeeping

variable {work : Keeping σ α}

theorem pure (a : α) : WatchesKeeping (Pure.pure a : Keeping σ α) :=
  fun _ => Watches.pure _

theorem throw (error : Error) : WatchesKeeping (throw error : Keeping σ α) :=
  fun _ => Watches.pure _

theorem ofExcept (result : Except Error α) : WatchesKeeping (Keeping.ofExcept result : Keeping σ α) :=
  fun _ => Watches.pure _

theorem lift {task : Task α} (watches : Watches task) :
    WatchesKeeping (liftM task : Keeping σ α) := fun state =>
  watches.andThen (fun result volume => ((result, state), volume)) (fun _ => rfl) fun _ => Watches.pure _

theorem bind {next : α → Keeping σ β} (first : WatchesKeeping work)
    (second : ∀ a, WatchesKeeping (next a)) : WatchesKeeping (work >>= next) := fun state =>
  (first state).andThen (fun result => ExceptT.bindCont next result.1 result.2) (fun _ => rfl) fun
    | (.ok a, last) => second a last
    | (.error _, _) => Watches.pure _

theorem tryCatch {handler : Error → Keeping σ α} (first : WatchesKeeping work)
    (second : ∀ error, WatchesKeeping (handler error)) :
    WatchesKeeping (MonadExcept.tryCatch work handler) := fun state =>
  (first state).andThen
    (fun
      | (.ok a, last) => (Pure.pure a : Keeping σ α) last
      | (.error error, last) => handler error last)
    (fun volume => by
      rw [Keeping.tryCatch_apply]
      rcases work state volume with ⟨⟨error | a, last⟩, after⟩ <;> rfl)
    fun
    | (.ok a, last) => pure a last
    | (.error error, last) => second error last

theorem getThen {next : σ → Keeping σ β} (watches : ∀ state, WatchesKeeping (next state)) :
    WatchesKeeping (get >>= next) :=
  fun state => watches state state

theorem modifying (change : σ → σ) : WatchesKeeping (modify change : Keeping σ PUnit) :=
  fun _ => Watches.pure _

theorem onPart [Inhabited τ] {part : σ → τ} {put : τ → σ → σ} {work : Keeping τ α}
    (watches : WatchesKeeping work) : WatchesKeeping (Keeping.onPart part put work) := fun state =>
  (watches (part state)).andThen
    (fun result volume => ((result.1, put result.2 (put default state)), volume)) (fun _ => rfl)
    fun _ => Watches.pure _

theorem outcome (watches : WatchesKeeping work) : WatchesKeeping (Keeping.outcome work) := fun state =>
  (watches state).andThen (fun result volume => ((.ok result.1, result.2), volume)) (fun _ => rfl)
    fun _ => Watches.pure _

theorem foldlM {step : β → α → Keeping σ β} (each : ∀ b item, WatchesKeeping (step b item))
    (items : List α) (b : β) : WatchesKeeping (items.foldlM step b) := by
  induction items generalizing b with
  | nil => exact pure b
  | cons item items ih =>
      rw [List.foldlM_cons]
      exact (each b item).bind ih

end WatchesKeeping

/-! ## Steps -/

theorem openFile_watches (path : Path) : Watches (openFile path) := by
  refine Watches.attempt fun volume handle after ended => ?_
  cases found : volume.find path with
  | error failure =>
      rw [found] at ended
      contradiction
  | ok entry =>
      rw [found] at ended
      rcases entry with _ | _ | id
      · contradiction
      · exact (Prod.mk.inj (Except.ok.inj ended)).2.symm
      · exact (Prod.mk.inj (Except.ok.inj ended)).2.symm

theorem readAt_watches (handle : Handle) (start length : Nat) : Watches (readAt handle start length) := by
  refine Watches.attempt fun volume bytes after ended => ?_
  cases handle with
  | directory => contradiction
  | file id => exact (Prod.mk.inj (Except.ok.inj ended)).2.symm

theorem fileLength_watches (handle : Handle) : Watches (fileLength handle) := by
  refine Watches.attempt fun volume length after ended => ?_
  cases handle <;> exact (Prod.mk.inj (Except.ok.inj ended)).2.symm

end Storage

end FingerprintSet
