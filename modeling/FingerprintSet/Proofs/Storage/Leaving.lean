import FingerprintSet.Proofs.Storage.Keeping

/-!
# What work leaves of its state

The state that work ends with, whatever the volume is like and whatever it refuses.  This is the
judgement for what does not depend on the volume: the numbers that are given out and the readers
that are counted.
-/

namespace FingerprintSet

open Storage

namespace Keeping

variable {σ τ α β : Type}

/-- On any volume, work ends with `holds` of its result and the state it leaves. -/
def Leaves (work : Keeping σ α) (state : σ) (holds : Except Error α → σ → Prop) : Prop :=
  ∀ before, holds (work state before).1.1 (work state before).1.2

namespace Leaves

variable {work : Keeping σ α} {state : σ} {holds : Except Error α → σ → Prop}

theorem mono {more : Except Error α → σ → Prop} (leaves : Leaves work state holds)
    (sub : ∀ result last, holds result last → more result last) : Leaves work state more :=
  fun before => sub _ _ (leaves before)

/-- Two things that hold of what is left hold of it together. -/
theorem and {other : Except Error α → σ → Prop} (leaves : Leaves work state holds)
    (also : Leaves work state other) :
    Leaves work state fun result last => holds result last ∧ other result last :=
  fun before => ⟨leaves before, also before⟩

theorem pure {a : α} (there : holds (.ok a) state) :
    Leaves (Pure.pure a : Keeping σ α) state holds :=
  fun _ => there

theorem ofExcept {result : Except Error α} (there : holds result state) :
    Leaves (Keeping.ofExcept result) state holds :=
  fun _ => there

/-- Work on the volume alone leaves the state as it is. -/
theorem lift {task : Task α} (there : ∀ result, holds result state) :
    Leaves (liftM task : Keeping σ α) state holds :=
  fun before => there (task before).1

theorem outcome {holds : Except Error (Except Error α) → σ → Prop}
    (leaves : Leaves work state fun result => holds (.ok result)) :
    Leaves (Keeping.outcome work) state holds :=
  fun before => leaves before

/-- Work goes on from whatever is known in the middle. -/
theorem bind {next : α → Keeping σ β} {holds : Except Error β → σ → Prop}
    (middle : Except Error α → σ → Prop) (first : Leaves work state middle)
    (good : ∀ a last, middle (.ok a) last → Leaves (next a) last holds)
    (bad : ∀ error last, middle (.error error) last → holds (.error error) last) :
    Leaves (work >>= next) state holds := by
  intro before
  have ended := first before
  rw [bind_apply]
  revert ended
  rcases work state before with ⟨⟨error | a, last⟩, after⟩
  · exact fun ended => bad error last ended
  · exact fun ended => good a last ended after

theorem getThen {next : σ → Keeping σ β} {holds : Except Error β → σ → Prop}
    (leaves : Leaves (next state) state holds) : Leaves (get >>= next) state holds :=
  leaves

theorem modifyThen {change : σ → σ} {next : PUnit → Keeping σ β}
    {holds : Except Error β → σ → Prop} (leaves : Leaves (next ⟨⟩) (change state) holds) :
    Leaves (modify change >>= next) state holds :=
  leaves

theorem modifying {change : σ → σ} {holds : Except Error PUnit → σ → Prop}
    (there : holds (.ok ⟨⟩) (change state)) : Leaves (modify change) state holds :=
  fun _ => there

theorem onPart [Inhabited τ] {part : σ → τ} {put : τ → σ → σ} {work : Keeping τ α}
    (leaves : Leaves work (part state) fun result inner =>
      holds result (put inner (put default state))) :
    Leaves (Keeping.onPart part put work) state holds :=
  fun before => leaves before

theorem tryCatch {handler : Error → Keeping σ α} {middle : Except Error α → σ → Prop}
    (first : Leaves work state middle) (good : ∀ a last, middle (.ok a) last → holds (.ok a) last)
    (bad : ∀ error last, middle (.error error) last → Leaves (handler error) last holds) :
    Leaves (MonadExcept.tryCatch work handler) state holds := by
  intro before
  have ended := first before
  rw [tryCatch_apply]
  revert ended
  rcases work state before with ⟨⟨error | a, last⟩, after⟩
  · exact fun ended => bad error last ended after
  · exact fun ended => good a last ended

/-- What every round of a loop keeps, whether or not it fails, the loop keeps. -/
theorem foldlM {items : List β} {round : α → β → Keeping σ α} {kept : σ → Prop}
    (rounds : ∀ a, ∀ item ∈ items, ∀ state, kept state →
      Leaves (round a item) state fun _ last => kept last) (start : kept state) (a : α) :
    Leaves (items.foldlM round a) state fun _ last => kept last := by
  induction items generalizing state a with
  | nil => exact pure start
  | cons item items ih =>
      rw [List.foldlM_cons]
      refine bind (fun _ last => kept last)
        (rounds a item List.mem_cons_self state start) ?_ fun _ _ still => still
      intro next last still
      exact ih (fun a other mem => rounds a other (List.mem_cons_of_mem item mem)) still next

/-- Where every round of a loop leaves what the next one starts from, whether or not it fails, the
loop leaves what its last round leaves. -/
theorem foldRange {round : α → Nat → Keeping σ α} {kept : Nat → σ → Prop} (start : kept 0 state)
    (later : ∀ n last, kept n last → kept (n + 1) last) (count : Nat)
    (rounds : ∀ n < count, ∀ a state, kept n state →
      Leaves (round a n) state fun _ last => kept (n + 1) last) (a : α) :
    Leaves ((List.range count).foldlM round a) state fun _ last => kept count last := by
  induction count with
  | zero => exact pure start
  | succ count ih =>
      rw [List.range_succ, List.foldlM_append]
      have before := ih fun n below => rounds n (Nat.lt_succ_of_lt below)
      refine bind (fun _ last => kept count last) before ?_ fun _ last there => later count last there
      intro next last there
      rw [List.foldlM_cons]
      refine bind _ (rounds count (Nat.lt_succ_self count) next last there) ?_ fun _ _ still => still
      exact fun _ _ still => pure still

/-- Where every round of a loop leaves what the next one starts from if it does not fail, the loop
leaves what its last round leaves. -/
theorem foldRangeOk {round : α → Nat → Keeping σ α} {kept : Nat → σ → Prop} (start : kept 0 state)
    (count : Nat)
    (rounds : ∀ n < count, ∀ a state, kept n state →
      Leaves (round a n) state fun result last => ∀ b, result = .ok b → kept (n + 1) last) (a : α) :
    Leaves ((List.range count).foldlM round a) state fun result last =>
      ∀ b, result = .ok b → kept count last := by
  induction count with
  | zero => exact pure fun _ _ => start
  | succ count ih =>
      rw [List.range_succ, List.foldlM_append]
      have before := ih fun n below => rounds n (Nat.lt_succ_of_lt below)
      refine bind _ before ?_ fun _ _ _ => by simp
      intro next last there
      rw [List.foldlM_cons]
      have round := rounds count (Nat.lt_succ_self count) next last (there next rfl)
      refine bind _ round ?_ fun _ _ _ => by simp
      exact fun done _ still => pure fun _ _ => still done rfl

/-- The state that was built is one that the work leaves. -/
theorem of_build {kept : σ → Prop} {last : σ} {before after : Volume}
    (leaves : Leaves work state fun result last => ∀ a, result = .ok a → kept last)
    (built : build state work before = (.ok last, after)) : kept last := by
  have left := leaves before
  have ended : (work state before).1.1.map (fun _ => (work state before).1.2) = .ok last :=
    congrArg Prod.fst built
  revert left ended
  rcases work state before with ⟨⟨error | a, final⟩, _⟩
  · exact fun _ ended => nomatch ended
  · intro left ended
    obtain rfl := Except.ok.inj ended
    exact left a rfl

end Leaves

/-- What work leaves of its state on any volume, it leaves on this one. -/
theorem Runs.leaving {work : Keeping σ α} {state : σ} {before : Volume} {paths : Path → Prop}
    {files : FileId → Prop} {good : α → σ → Volume → Prop} {bad : σ → Volume → Prop}
    {holds : σ → Prop} (runs : Runs work state before paths files good bad)
    (leaves : Leaves work state fun _ last => holds last) :
    Runs work state before paths files (fun a last after => good a last after ∧ holds last)
      fun last after => bad last after ∧ holds last := by
  have left := leaves before
  rcases runs.cases with ⟨a, last, after, result, changes, there⟩ |
    ⟨error, last, after, result, changes, there, refused⟩ <;> rw [result] at left
  · exact of_ok result changes ⟨there, left⟩
  · exact of_error result changes ⟨there, left⟩ refused

theorem Ends.leaving {work : Keeping σ α} {state : σ} {before : Volume}
    {holds : Except Error α → σ → Volume → Prop} {kept : Except Error α → σ → Prop}
    (ends : Ends work state before holds) (leaves : Leaves work state kept) :
    Ends work state before fun result last after => holds result last after ∧ kept result last := by
  rw [Ends] at ends ⊢
  exact ⟨ends, leaves before⟩

end Keeping

end FingerprintSet
