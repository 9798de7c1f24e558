import FingerprintSet.Proofs.Storage.Outcome

/-!
# How work around a state ends

The judgement of `Outcome` for work that keeps a state beside the volume.  A refusal leaves a
state behind as well, so what is known of it then has a place of its own.
-/

namespace FingerprintSet

open Storage Volume

namespace Keeping

variable {σ τ α β : Type}

theorem bind_apply (work : Keeping σ α) (next : α → Keeping σ β) (state : σ) (before : Volume) :
    (work >>= next) state before =
      match work state before with
      | ((.ok a, state), after) => next a state after
      | ((.error error, state), after) => ((.error error, state), after) := by
  have unfolded : (work >>= next) state before =
      ExceptT.bindCont next (work state before).1.1 (work state before).1.2
        (work state before).2 := rfl
  rw [unfolded]
  rcases work state before with ⟨⟨error | a, state⟩, after⟩ <;> rfl

theorem bind_congr_left {work other : Keeping σ α} {next : α → Keeping σ β} {state : σ}
    {before : Volume} (same : work state before = other state before) :
    (work >>= next) state before = (other >>= next) state before := by
  rw [bind_apply, bind_apply, same]

theorem bind_congr_apply {work : Keeping σ α} {next other : α → Keeping σ β} {state : σ}
    {before : Volume} (same : ∀ a last after, work state before = ((.ok a, last), after) →
      next a last after = other a last after) :
    (work >>= next) state before = (work >>= other) state before := by
  rw [bind_apply, bind_apply]
  rcases ended : work state before with ⟨⟨error | a, last⟩, after⟩
  · rfl
  · exact same a last after ended

theorem lift_apply (task : Task α) (state : σ) (before : Volume) :
    (liftM task : Keeping σ α) state before = (((task before).1, state), (task before).2) :=
  rfl

theorem getThen_apply (next : σ → Keeping σ β) (state : σ) (before : Volume) :
    (get >>= next) state before = next state state before :=
  rfl

theorem onPart_apply [Inhabited τ] (part : σ → τ) (put : τ → σ → σ) (work : Keeping τ α)
    (state : σ) (before : Volume) :
    onPart part put work state before =
      (((work (part state) before).1.1,
        put (work (part state) before).1.2 (put default state)), (work (part state) before).2) :=
  rfl

theorem tryCatch_apply (work : Keeping σ α) (handler : Error → Keeping σ α) (state : σ)
    (before : Volume) :
    (tryCatch work handler : Keeping σ α) state before =
      match work state before with
      | ((.ok a, state), after) => ((.ok a, state), after)
      | ((.error error, state), after) => handler error state after := by
  let next : Except Error α → StateT σ (StateM Volume) (Except Error α)
    | .ok a => pure (.ok a)
    | .error error => handler error
  have caught : (tryCatch work handler : Keeping σ α) = (ExceptT.run work >>= next) := by
    show ExceptT.tryCatch work handler = _
    unfold ExceptT.tryCatch
    refine bind_congr fun result => ?_
    cases result <;> rfl
  have unfolded : (tryCatch work handler : Keeping σ α) state before =
      next (work state before).1.1 (work state before).1.2 (work state before).2 := by
    rw [caught]
    rfl
  rw [unfolded]
  rcases work state before with ⟨⟨error | a, state⟩, after⟩ <;> rfl

/-- Work changes only what it may and ends with `good`, or with `bad` if a step was refused. -/
def Runs (work : Keeping σ α) (state : σ) (before : Volume) (paths : Path → Prop)
    (files : FileId → Prop) (good : α → σ → Volume → Prop) (bad : σ → Volume → Prop) : Prop :=
  match work state before with
  | ((.ok a, state), after) => Changes paths files before after ∧ good a state after
  | ((.error _, state), after) =>
      Changes paths files before after ∧ bad state after ∧ ¬before.Quiet

namespace Runs

variable {work : Keeping σ α} {state : σ} {before : Volume} {paths : Path → Prop}
  {files : FileId → Prop} {good : α → σ → Volume → Prop} {bad : σ → Volume → Prop}

theorem of_ok {a : α} {last : σ} {after : Volume}
    (result : work state before = ((.ok a, last), after))
    (changes : Changes paths files before after) (holds : good a last after) :
    Runs work state before paths files good bad := by
  rw [Runs, result]
  exact ⟨changes, holds⟩

theorem of_error {error : Error} {last : σ} {after : Volume}
    (result : work state before = ((.error error, last), after))
    (changes : Changes paths files before after) (holds : bad last after)
    (refused : ¬before.Quiet) : Runs work state before paths files good bad := by
  rw [Runs, result]
  exact ⟨changes, holds, refused⟩

theorem cases (runs : Runs work state before paths files good bad) :
    (∃ a last after, work state before = ((.ok a, last), after) ∧
        Changes paths files before after ∧ good a last after) ∨
      ∃ error last after, work state before = ((.error error, last), after) ∧
        Changes paths files before after ∧ bad last after ∧ ¬before.Quiet := by
  unfold Runs at runs
  split at runs <;> rename_i result
  · exact Or.inl ⟨_, _, _, result, runs⟩
  · exact Or.inr ⟨_, _, _, result, runs⟩

/-- Under a quiet schedule there is a result. -/
theorem of_quiet (runs : Runs work state before paths files good bad) (quiet : before.Quiet) :
    ∃ a last after, work state before = ((.ok a, last), after) ∧
      Changes paths files before after ∧ good a last after := by
  rcases runs.cases with there | ⟨_, _, _, _, _, _, refused⟩
  · exact there
  · exact absurd quiet refused

theorem mono {moreGood : α → σ → Volume → Prop} {moreBad : σ → Volume → Prop}
    (runs : Runs work state before paths files good bad)
    (goodSub : ∀ a last after, Changes paths files before after → good a last after →
      moreGood a last after)
    (badSub : ∀ last after, Changes paths files before after → bad last after →
      moreBad last after) :
    Runs work state before paths files moreGood moreBad := by
  rcases runs.cases with ⟨a, last, after, result, changes, holds⟩ |
    ⟨error, last, after, result, changes, holds, refused⟩
  · exact of_ok result changes (goodSub a last after changes holds)
  · exact of_error result changes (badSub last after changes holds) refused

theorem widen {morePaths : Path → Prop} {moreFiles : FileId → Prop}
    (runs : Runs work state before paths files good bad)
    (pathsSub : ∀ path, paths path → morePaths path)
    (filesSub : ∀ id, id < before.contents.size → files id → moreFiles id) :
    Runs work state before morePaths moreFiles good bad := by
  rcases runs.cases with ⟨a, last, after, result, changes, holds⟩ |
    ⟨error, last, after, result, changes, holds, refused⟩
  · exact of_ok result (changes.mono pathsSub filesSub) holds
  · exact of_error result (changes.mono pathsSub filesSub) holds refused

theorem ofNothing (runs : Runs work state before Nowhere NoFile good bad) :
    Runs work state before paths files good bad :=
  runs.widen (fun _ nowhere => nowhere.elim) fun _ _ none => none.elim

theorem pure {a : α} (holds : good a state before) :
    Runs (Pure.pure a) state before paths files good bad :=
  of_ok rfl (.refl before) holds

theorem bind {next : α → Keeping σ β} {middle : α → σ → Volume → Prop}
    {good : β → σ → Volume → Prop} (first : Runs work state before paths files middle bad)
    (second : ∀ a last after, Changes paths files before after → middle a last after →
      Runs (next a) last after paths files good bad) :
    Runs (work >>= next) state before paths files good bad := by
  rcases first.cases with ⟨a, last, after, result, changes, holds⟩ |
    ⟨error, last, after, result, changes, holds, refused⟩
  · rcases (second a last after changes holds).cases with
      ⟨b, end_, final, more, moreChanges, ends⟩ |
      ⟨error, end_, final, more, moreChanges, ends, refused⟩
    · exact of_ok (by rw [bind_apply, result]; exact more) (changes.trans moreChanges) ends
    · exact of_error (by rw [bind_apply, result]; exact more) (changes.trans moreChanges) ends
        fun quiet => refused (changes.quiet quiet)
  · exact of_error (by rw [bind_apply, result]) changes holds refused

/-- What each round of a loop hands on to the next one is there after the last. -/
theorem foldRange {round : β → Nat → Keeping σ β} {b : β} (inv : Nat → β → σ → Volume → Prop)
    (start : inv 0 b state before) (count : Nat)
    (rounds : ∀ n < count, ∀ b last after, Changes paths files before after → inv n b last after →
      Runs (round b n) last after paths files (inv (n + 1)) bad) :
    Runs ((List.range count).foldlM round b) state before paths files (inv count) bad := by
  induction count with
  | zero => exact pure start
  | succ count ih =>
      rw [List.range_succ, List.foldlM_append]
      apply bind (ih fun n below => rounds n (Nat.lt_succ_of_lt below))
      intro b last after changes holds
      rw [List.foldlM_cons]
      apply bind (rounds count (Nat.lt_succ_self _) b last after changes holds)
      exact fun _ _ _ _ done => pure done

/-- Work that comes to other work from a later state on. -/
theorem comesTo {other : Keeping σ α} {last : σ} {after : Volume}
    (same : work state before = other last after) (changes : Changes paths files before after)
    (runs : Runs other last after paths files good bad) :
    Runs work state before paths files good bad := by
  rcases runs.cases with ⟨a, end_, final, result, more, holds⟩ |
    ⟨error, end_, final, result, more, holds, refused⟩
  · exact of_ok (same.trans result) (changes.trans more) holds
  · exact of_error (same.trans result) (changes.trans more) holds
      fun quiet => refused (changes.quiet quiet)

/-- Work that cleans up behind itself when it fails, and fails then all the same. -/
theorem cleanUp {task : Task Unit} {middle : σ → Volume → Prop}
    (first : Runs work state before paths files good middle)
    (cleans : ∀ last after, Changes paths files before after → middle last after →
      Storage.Runs task after paths files fun _ _ => True)
    (stays : ∀ last after final, middle last after → Changes paths files after final →
      bad last final) :
    Runs (MonadExcept.tryCatch work fun error => do liftM task; throw error) state before paths
      files good bad := by
  rcases first.cases with ⟨a, last, after, result, changes, holds⟩ |
    ⟨error, last, after, result, changes, holds, refused⟩
  · exact of_ok ((tryCatch_apply ..).trans (by rw [result])) changes holds
  · have caught : (MonadExcept.tryCatch work fun error => do liftM task; throw error :
        Keeping σ α) state before = (do liftM task; throw error : Keeping σ α) last after :=
      (tryCatch_apply ..).trans (by rw [result])
    have ends (outcome : Except Error Unit) (final : Volume) (cleaned : task after = (outcome, final)) :
        ∃ failure, (do liftM task; throw error : Keeping σ α) last after =
          ((.error failure, last), final) := by
      rw [bind_apply, lift_apply, cleaned]
      cases outcome with
      | ok => exact ⟨error, rfl⟩
      | error failure => exact ⟨failure, rfl⟩
    rcases Meets.cases (cleans last after changes holds) with ⟨_, final, cleaned, more, -⟩ |
      ⟨_, final, cleaned, more, -⟩
    · obtain ⟨failure, failed⟩ := ends _ final cleaned
      exact of_error (caught.trans failed) (changes.trans more) (stays last after final holds more)
        refused
    · obtain ⟨failure, failed⟩ := ends _ final cleaned
      exact of_error (caught.trans failed) (changes.trans more) (stays last after final holds more)
        refused

/-- Work on the volume alone leaves the state as it was. -/
theorem lift {task : Task α} (runs : Storage.Runs task before paths files fun a after =>
      good a state after)
    (refused : ∀ after, Changes paths files before after → bad state after) :
    Runs (liftM task) state before paths files good bad := by
  rcases Meets.cases runs with ⟨a, after, result, changes, holds⟩ |
    ⟨error, after, result, changes, notQuiet⟩
  · exact of_ok (by rw [lift_apply, result]) changes holds
  · exact of_error (by rw [lift_apply, result]) changes (refused after changes) notQuiet

theorem liftThen {task : Task β} {next : β → Keeping σ α} {middle : β → Volume → Prop}
    (runs : Storage.Runs task before paths files middle)
    (refused : ∀ after, Changes paths files before after → bad state after)
    (goesOn : ∀ b after, Changes paths files before after → middle b after →
      Runs (next b) state after paths files good bad) :
    Runs (liftM task >>= next) state before paths files good bad := by
  have first : Runs (liftM task) state before paths files
      (fun b last after => last = state ∧ middle b after) bad :=
    lift (Storage.Runs.mono runs fun _ _ _ holds => ⟨rfl, holds⟩) refused
  apply bind first
  rintro b _ after changes ⟨rfl, holds⟩
  exact goesOn b after changes holds

/-! What only looks at the state or changes it takes no step. -/

theorem getThen {next : σ → Keeping σ α} (runs : Runs (next state) state before paths files good bad) :
    Runs (MonadState.get >>= next) state before paths files good bad :=
  runs

theorem modifyGetThen {change : σ → β × σ} {next : β → Keeping σ α}
    (runs : Runs (next (change state).1) (change state).2 before paths files good bad) :
    Runs (MonadState.modifyGet change >>= next) state before paths files good bad :=
  runs

theorem modifyThen {change : σ → σ} {next : PUnit → Keeping σ α}
    (runs : Runs (next ⟨⟩) (change state) before paths files good bad) :
    Runs (modify change >>= next) state before paths files good bad :=
  runs

theorem modifying {change : σ → σ} {good : PUnit → σ → Volume → Prop}
    (holds : good ⟨⟩ (change state) before) :
    Runs (modify change) state before paths files good bad :=
  of_ok rfl (.refl before) holds

/-- Work around a part of the state. -/
theorem onPart [Inhabited τ] {part : σ → τ} {put : τ → σ → σ} {work : Keeping τ α}
    {good : α → τ → Volume → Prop} {bad : τ → Volume → Prop}
    (runs : Runs work (part state) before paths files good bad) :
    Runs (Keeping.onPart part put work) state before paths files
      (fun a last after => ∃ inner, last = put inner (put default state) ∧ good a inner after)
      fun last after => ∃ inner, last = put inner (put default state) ∧ bad inner after := by
  rcases runs.cases with ⟨a, last, after, result, changes, holds⟩ |
    ⟨error, last, after, result, changes, holds, refused⟩
  · exact of_ok (by rw [onPart_apply, result]) changes ⟨last, rfl, holds⟩
  · exact of_error (by rw [onPart_apply, result]) changes ⟨last, rfl, holds⟩ refused

theorem build_apply (work : Keeping σ α) (state : σ) (before : Volume) :
    Keeping.build state work before =
      ((work state before).1.1.map fun _ => (work state before).1.2, (work state before).2) :=
  rfl

end Runs

/-! ## However work ends -/

/-- What holds when work has ended, with a result or an error. -/
def Ends (work : Keeping σ α) (state : σ) (before : Volume)
    (holds : Except Error α → σ → Volume → Prop) : Prop :=
  holds (work state before).1.1 (work state before).1.2 (work state before).2

namespace Ends

variable {work : Keeping σ α} {state : σ} {before : Volume}
  {holds : Except Error α → σ → Volume → Prop}

theorem of_eq {result : Except Error α} {last : σ} {after : Volume}
    (ended : work state before = ((result, last), after)) (there : holds result last after) :
    Ends work state before holds := by
  rw [Ends, ended]
  exact there

theorem mono {more : Except Error α → σ → Volume → Prop} (ends : Ends work state before holds)
    (sub : ∀ result last after, holds result last after → more result last after) :
    Ends work state before more :=
  sub _ _ _ ends

/-- Work that comes to other work. -/
theorem comesTo {other : Keeping σ α} {last : σ} {after : Volume}
    (same : work state before = other last after) (ends : Ends other last after holds) :
    Ends work state before holds := by
  rw [Ends, same]
  exact ends

theorem bind {next : α → Keeping σ β} {middle : Except Error α → σ → Volume → Prop}
    {holds : Except Error β → σ → Volume → Prop} (first : Ends work state before middle)
    (fails : ∀ error last after, middle (.error error) last after → holds (.error error) last after)
    (goesOn : ∀ a last after, middle (.ok a) last after → Ends (next a) last after holds) :
    Ends (work >>= next) state before holds := by
  rw [Ends] at first
  rcases result : work state before with ⟨⟨error | a, last⟩, after⟩
  · rw [result] at first
    exact of_eq (by rw [bind_apply, result]) (fails error last after first)
  · rw [result] at first
    have later := goesOn a last after first
    rw [Ends, bind_apply, result]
    exact later

/-- Work on the volume alone leaves the state as it was. -/
theorem liftThen {task : Task β} {next : β → Keeping σ α} {middle : β → Volume → Prop}
    (meets : Meets task before middle fun error after => holds (.error error) state after)
    (goesOn : ∀ b after, middle b after → Ends (next b) state after holds) :
    Ends (liftM task >>= next) state before holds := by
  rcases meets.cases with ⟨b, after, result, there⟩ | ⟨error, after, result, there⟩
  · have later := goesOn b after there
    rw [Ends, bind_apply, lift_apply, result]
    exact later
  · exact of_eq (by rw [bind_apply, lift_apply, result]) there

theorem getThen {next : σ → Keeping σ α} (ends : Ends (next state) state before holds) :
    Ends (MonadState.get >>= next) state before holds :=
  ends

theorem modifyThen {change : σ → σ} {next : PUnit → Keeping σ α}
    (ends : Ends (next ⟨⟩) (change state) before holds) :
    Ends (modify change >>= next) state before holds :=
  ends

theorem ofExceptThen {result : Except Error β} {next : β → Keeping σ α}
    (fails : ∀ error, result = .error error → holds (.error error) state before)
    (goesOn : ∀ b, result = .ok b → Ends (next b) state before holds) :
    Ends (Keeping.ofExcept result >>= next) state before holds := by
  cases result with
  | ok b => exact goesOn b rfl
  | error error => exact fails error rfl

/-- Work around a part of the state. -/
theorem onPart [Inhabited τ] {part : σ → τ} {put : τ → σ → σ} {work : Keeping τ α}
    {holds : Except Error α → τ → Volume → Prop} (ends : Ends work (part state) before holds) :
    Ends (Keeping.onPart part put work) state before fun result last after =>
      ∃ inner, last = put inner (put default state) ∧ holds result inner after :=
  of_eq (onPart_apply part put work state before) ⟨_, rfl, ends⟩

/-- Work with its outcome as the result ends as the work does. -/
theorem outcome {holds : Except Error (Except Error α) → σ → Volume → Prop}
    (ends : Ends work state before fun result => holds (.ok result)) :
    Ends (Keeping.outcome work) state before holds :=
  ends

/-- Work that only a refusal can make fail. -/
theorem of_runs {paths : Path → Prop} {files : FileId → Prop} {good : α → σ → Volume → Prop}
    {bad : σ → Volume → Prop} (runs : Runs work state before paths files good bad)
    (whenGood : ∀ a last after, Changes paths files before after → good a last after →
      holds (.ok a) last after)
    (whenBad : ∀ error last after, Changes paths files before after → bad last after →
      ¬before.Quiet → holds (.error error) last after) : Ends work state before holds := by
  rcases runs.cases with ⟨a, last, after, result, changes, there⟩ |
    ⟨error, last, after, result, changes, there, refused⟩
  · exact of_eq result (whenGood a last after changes there)
  · exact of_eq result (whenBad error last after changes there refused)

/-- Work that only a refusal can make fail, with more work behind it. -/
theorem bindRuns {paths : Path → Prop} {files : FileId → Prop} {good : α → σ → Volume → Prop}
    {bad : σ → Volume → Prop} {next : α → Keeping σ β} {holds : Except Error β → σ → Volume → Prop}
    (runs : Runs work state before paths files good bad)
    (fails : ∀ error last after, Changes paths files before after → bad last after →
      ¬before.Quiet → holds (.error error) last after)
    (goesOn : ∀ a last after, Changes paths files before after → good a last after →
      Ends (next a) last after holds) : Ends (work >>= next) state before holds := by
  rcases runs.cases with ⟨a, last, after, result, changes, there⟩ |
    ⟨error, last, after, result, changes, there, refused⟩
  · have later := goesOn a last after changes there
    rw [Ends, bind_apply, result]
    exact later
  · exact of_eq (by rw [bind_apply, result]) (fails error last after changes there refused)

theorem bindQuiet {paths : Path → Prop} {files : FileId → Prop} {good : α → σ → Volume → Prop}
    {bad : σ → Volume → Prop} {next : α → Keeping σ β} {holds : Except Error β → σ → Volume → Prop}
    (runs : Runs work state before paths files good bad) (quiet : before.Quiet)
    (goesOn : ∀ a last after, Changes paths files before after → good a last after →
      Ends (next a) last after holds) : Ends (work >>= next) state before holds :=
  bindRuns runs (fun _ _ _ _ _ refused => absurd quiet refused) goesOn

end Ends

attribute [irreducible] Runs Ends

end Keeping

end FingerprintSet
