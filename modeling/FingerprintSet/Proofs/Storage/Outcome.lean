import FingerprintSet.Proofs.Storage.Frame
import FingerprintSet.Task

/-!
# How work on a volume ends

`Meets` says what holds when some work ends, one way for a result and another for an error.
`Runs` is the judgement that nearly all work satisfies: it changes nothing but what it is
allowed to, and it ends well unless the schedule refused a step.  What a refusal leaves behind
is then known without looking at the steps again, and under a quiet schedule there is a result.
The same two judgements follow for work around a state.
-/

namespace FingerprintSet

open Storage Volume

namespace Storage

variable {ε δ α β : Type}

/-! ## Sequences of steps -/

theorem bind_apply (work : ExceptT ε (StateM Volume) α) (next : α → ExceptT ε (StateM Volume) β)
    (before : Volume) :
    (work >>= next) before =
      match work before with
      | (.ok a, after) => next a after
      | (.error error, after) => (.error error, after) := by
  have unfolded : (work >>= next) before =
      ExceptT.bindCont next (work before).1 (work before).2 := rfl
  rw [unfolded]
  rcases work before with ⟨error | a, after⟩ <;> rfl

/-- Work that came to a result did so step by step. -/
theorem exists_of_bind_ok {work : ExceptT ε (StateM Volume) α}
    {next : α → ExceptT ε (StateM Volume) β} {before after : Volume} {b : β}
    (ended : (work >>= next) before = (.ok b, after)) :
    ∃ a middle, work before = (.ok a, middle) ∧ next a middle = (.ok b, after) := by
  rw [bind_apply] at ended
  rcases result : work before with ⟨error | a, middle⟩ <;> rw [result] at ended
  · exact nomatch (Prod.mk.inj ended).1
  · exact ⟨a, middle, rfl, ended⟩

theorem tryCatch_apply (work : ExceptT ε (StateM Volume) α)
    (handler : ε → ExceptT ε (StateM Volume) α) (before : Volume) :
    (tryCatch work handler : ExceptT ε (StateM Volume) α) before =
      match work before with
      | (.ok a, after) => (.ok a, after)
      | (.error error, after) => handler error after := by
  have unfolded : (tryCatch work handler : ExceptT ε (StateM Volume) α) before =
      (match (work before).1 with
        | .ok a => (pure (.ok a) : StateM Volume (Except ε α))
        | .error error => handler error) (work before).2 := rfl
  rw [unfolded]
  rcases work before with ⟨error | a, after⟩ <;> rfl

theorem adapt_apply (rename : δ → ε) (work : ExceptT δ (StateM Volume) α) (before : Volume) :
    (ExceptT.adapt rename work : ExceptT ε (StateM Volume) α) before =
      match work before with
      | (.ok a, after) => (.ok a, after)
      | (.error error, after) => (.error (rename error), after) := by
  have unfolded : (ExceptT.adapt rename work : ExceptT ε (StateM Volume) α) before =
      ((work before).1.mapError rename, (work before).2) := rfl
  rw [unfolded]
  rcases work before with ⟨error | a, after⟩ <;> rfl

theorem map_apply (f : α → β) (work : ExceptT ε (StateM Volume) α) (before : Volume) :
    (f <$> work : ExceptT ε (StateM Volume) β) before = ((work before).1.map f, (work before).2) := by
  rw [map_eq_pure_bind, bind_apply]
  rcases work before with ⟨error | a, after⟩ <;> rfl

theorem attempt_apply (step : Volume → Except Failure (α × Volume)) (before : Volume) :
    attempt step before =
      match before.faults before.clock with
      | some errno => (.error (.refused errno), before.ticked)
      | none =>
          match step before.ticked with
          | .ok (a, after) => (.ok a, after)
          | .error failure => (.error failure, before.ticked) :=
  rfl

/-! ## Results and errors -/

/-- Work ends with `good` if it has a result and with `bad` if it fails. -/
def Meets (work : ExceptT ε (StateM Volume) α) (before : Volume)
    (good : α → Volume → Prop) (bad : ε → Volume → Prop) : Prop :=
  match work before with
  | (.ok a, after) => good a after
  | (.error error, after) => bad error after

namespace Meets

variable {before : Volume} {work : ExceptT ε (StateM Volume) α}
  {good : α → Volume → Prop} {bad : ε → Volume → Prop}

theorem of_ok {a : α} {after : Volume} (result : work before = (.ok a, after))
    (holds : good a after) : Meets work before good bad := by
  rw [Meets, result]
  exact holds

theorem of_error {error : ε} {after : Volume} (result : work before = (.error error, after))
    (holds : bad error after) : Meets work before good bad := by
  rw [Meets, result]
  exact holds

theorem cases (meets : Meets work before good bad) :
    (∃ a after, work before = (.ok a, after) ∧ good a after) ∨
      ∃ error after, work before = (.error error, after) ∧ bad error after := by
  unfold Meets at meets
  split at meets <;> rename_i result
  · exact Or.inl ⟨_, _, result, meets⟩
  · exact Or.inr ⟨_, _, result, meets⟩

theorem mono {moreGood : α → Volume → Prop} {moreBad : ε → Volume → Prop}
    (meets : Meets work before good bad)
    (goodSub : ∀ a after, good a after → moreGood a after)
    (badSub : ∀ error after, bad error after → moreBad error after) :
    Meets work before moreGood moreBad := by
  rcases meets.cases with ⟨a, after, result, holds⟩ | ⟨error, after, result, holds⟩
  · exact of_ok result (goodSub a after holds)
  · exact of_error result (badSub error after holds)

/-- What else is known of a result, if there is one. -/
theorem and {also : α → Volume → Prop} (meets : Meets work before good bad)
    (other : Meets work before also fun _ _ => True) :
    Meets work before (fun a after => good a after ∧ also a after) bad := by
  rcases meets.cases with ⟨a, after, result, holds⟩ | ⟨error, after, result, holds⟩ <;>
    rw [Meets, result] at other
  · exact of_ok result ⟨holds, other⟩
  · exact of_error result holds

/-- Work that comes to other work from a later state on. -/
theorem comesTo {other : ExceptT ε (StateM Volume) α} {after : Volume}
    (same : work before = other after) (meets : Meets other after good bad) :
    Meets work before good bad := by
  rw [Meets, same]
  exact meets

theorem bind {next : α → ExceptT ε (StateM Volume) β} {middle : α → Volume → Prop}
    {good : β → Volume → Prop} (first : Meets work before middle bad)
    (second : ∀ a after, middle a after → Meets (next a) after good bad) :
    Meets (work >>= next) before good bad := by
  rcases first.cases with ⟨a, after, result, holds⟩ | ⟨error, after, result, holds⟩
  · exact (second a after holds).comesTo (by rw [bind_apply, result])
  · exact of_error (by rw [bind_apply, result]) holds

/-- Looking at the whole volume takes no step. -/
theorem getVolumeThen {next : Volume → ExceptT ε (StateM Volume) α}
    (meets : Meets (next before) before good bad) :
    Meets (getThe Volume >>= next) before good bad :=
  meets

theorem tryCatch {handler : ε → ExceptT ε (StateM Volume) α} {middle : ε → Volume → Prop}
    (first : Meets work before good middle)
    (second : ∀ error after, middle error after → Meets (handler error) after good bad) :
    Meets (MonadExcept.tryCatch work handler) before good bad := by
  rcases first.cases with ⟨a, after, result, holds⟩ | ⟨error, after, result, holds⟩
  · exact of_ok ((tryCatch_apply work handler before).trans (by rw [result])) holds
  · have unfolded := (tryCatch_apply work handler before).trans (by rw [result])
    rw [Meets, unfolded]
    exact second error after holds

theorem adapt {work : ExceptT δ (StateM Volume) α} {rename : δ → ε}
    (meets : Meets work before good fun error => bad (rename error)) :
    Meets (ExceptT.adapt rename work) before good bad := by
  rcases meets.cases with ⟨a, after, result, holds⟩ | ⟨error, after, result, holds⟩
  · exact of_ok (by rw [adapt_apply, result]) holds
  · exact of_error (by rw [adapt_apply, result]) holds

/-- A step that is not refused ends as it says. -/
theorem attempt {step : Volume → Except Failure (α × Volume)} {a : α} {after : Volume}
    {bad : Failure → Volume → Prop} (result : step before.ticked = .ok (a, after))
    (holds : good a after) (refused : ∀ errno, ¬before.Quiet → bad (.refused errno) before.ticked) :
    Meets (Storage.attempt step) before good bad := by
  cases refusal : before.faults before.clock with
  | none => exact of_ok (by rw [attempt_apply, refusal, result]) holds
  | some errno =>
      refine of_error (by rw [attempt_apply, refusal]) (refused errno fun quiet => ?_)
      simp [quiet before.clock (Nat.le_refl _)] at refusal

/-- A step that cannot be taken fails with its own reason, unless it is refused. -/
theorem attempt_error {step : Volume → Except Failure (α × Volume)} {failure : Failure}
    {bad : Failure → Volume → Prop} (result : step before.ticked = .error failure)
    (fails : bad failure before.ticked)
    (refused : ∀ errno, ¬before.Quiet → bad (.refused errno) before.ticked) :
    Meets (Storage.attempt step) before good bad := by
  cases refusal : before.faults before.clock with
  | none => exact of_error (by rw [attempt_apply, refusal, result]) fails
  | some errno =>
      refine of_error (by rw [attempt_apply, refusal]) (refused errno fun quiet => ?_)
      simp [quiet before.clock (Nat.le_refl _)] at refusal

end Meets

/-! ## Work that only a refusal can make fail -/

/-- Work changes only what it may and ends with `good`, unless a step was refused. -/
def Runs (work : ExceptT ε (StateM Volume) α) (before : Volume) (paths : Path → Prop)
    (files : FileId → Prop) (good : α → Volume → Prop) : Prop :=
  Meets work before (fun a after => Changes paths files before after ∧ good a after)
    fun _ after => Changes paths files before after ∧ ¬before.Quiet

namespace Runs

variable {before : Volume} {work : ExceptT ε (StateM Volume) α} {paths : Path → Prop}
  {files : FileId → Prop} {good : α → Volume → Prop}

theorem pure {a : α} (holds : good a before) :
    Runs (Pure.pure a : ExceptT ε (StateM Volume) α) before paths files good :=
  Meets.of_ok rfl ⟨.refl before, holds⟩

/-- What work changes together with what was changed before it. -/
theorem since {start : Volume} (changes : Changes paths files start before)
    (runs : Runs work before paths files good) :
    Meets work before (fun a after => Changes paths files start after ∧ good a after)
      fun _ after => Changes paths files start after ∧ ¬start.Quiet := by
  refine Meets.mono runs ?_ ?_
  · exact fun a after ⟨more, holds⟩ => ⟨changes.trans more, holds⟩
  · exact fun _ after ⟨more, refused⟩ =>
      ⟨changes.trans more, fun quiet => refused (changes.quiet quiet)⟩

theorem bind {next : α → ExceptT ε (StateM Volume) β} {middle : α → Volume → Prop}
    {good : β → Volume → Prop} (first : Runs work before paths files middle)
    (second : ∀ a after, Changes paths files before after → middle a after →
      Runs (next a) after paths files good) :
    Runs (work >>= next) before paths files good :=
  Meets.bind first fun a middle ⟨changes, holds⟩ =>
    (second a middle changes holds).since changes

theorem mono {moreGood : α → Volume → Prop} (runs : Runs work before paths files good)
    (sub : ∀ a after, Changes paths files before after → good a after → moreGood a after) :
    Runs work before paths files moreGood :=
  Meets.mono runs (fun a after ⟨changes, holds⟩ => ⟨changes, sub a after changes holds⟩)
    fun _ _ bad => bad

theorem widen {morePaths : Path → Prop} {moreFiles : FileId → Prop}
    (runs : Runs work before paths files good) (pathsSub : ∀ path, paths path → morePaths path)
    (filesSub : ∀ id, id < before.contents.size → files id → moreFiles id) :
    Runs work before morePaths moreFiles good :=
  Meets.mono runs (fun _ _ ⟨changes, holds⟩ => ⟨changes.mono pathsSub filesSub, holds⟩)
    fun _ _ ⟨changes, refused⟩ => ⟨changes.mono pathsSub filesSub, refused⟩

theorem ofNothing (runs : Runs work before Nowhere NoFile good) :
    Runs work before paths files good :=
  runs.widen (fun _ nowhere => nowhere.elim) fun _ _ none => none.elim

theorem ofFresh (runs : Runs work before paths before.Fresh good) :
    Runs work before paths NoFile good :=
  runs.widen (fun _ inside => inside) fun _ known fresh => absurd known (Nat.not_lt.mpr fresh)

/-- What each round of a loop hands on to the next one is there after the last. -/
theorem foldRange {round : β → Nat → ExceptT ε (StateM Volume) β} {b : β}
    (inv : Nat → β → Volume → Prop) (start : inv 0 b before) (count : Nat)
    (rounds : ∀ n < count, ∀ b after, Changes paths files before after → inv n b after →
      Runs (round b n) after paths files (inv (n + 1))) :
    Runs ((List.range count).foldlM round b) before paths files (inv count) := by
  induction count with
  | zero => exact pure start
  | succ count ih =>
      rw [List.range_succ, List.foldlM_append]
      apply bind (ih fun n below => rounds n (Nat.lt_succ_of_lt below))
      intro b after changes holds
      rw [List.foldlM_cons]
      apply bind (rounds count (Nat.lt_succ_self _) b after changes holds)
      exact fun _ _ _ done => pure done

theorem adapt {work : ExceptT δ (StateM Volume) α} {rename : δ → ε}
    (runs : Runs work before paths files good) :
    Runs (ExceptT.adapt rename work) before paths files good :=
  Meets.adapt runs

/-- Under a quiet schedule there is a result. -/
theorem of_quiet (runs : Runs work before paths files good) (quiet : before.Quiet) :
    ∃ a after, work before = (.ok a, after) ∧ Changes paths files before after ∧ good a after := by
  rcases runs.cases with ⟨a, after, result, changes, holds⟩ | ⟨_, _, _, _, refused⟩
  · exact ⟨a, after, result, changes, holds⟩
  · exact absurd quiet refused

/-- Under a quiet schedule what comes next decides. -/
theorem quietly {next : α → ExceptT ε (StateM Volume) β} {middle : α → Volume → Prop}
    {good : β → Volume → Prop} {bad : ε → Volume → Prop}
    (first : Runs work before paths files middle) (quiet : before.Quiet)
    (second : ∀ a after, Changes paths files before after → middle a after →
      Meets (next a) after good bad) :
    Meets (work >>= next) before good bad := by
  obtain ⟨a, after, result, changes, holds⟩ := first.of_quiet quiet
  exact (second a after changes holds).comesTo (by rw [bind_apply, result])

/-- A look at the volume takes no step. -/
theorem inspect {view : Volume → α} (holds : good (view before) before) :
    Runs (Storage.inspect view) before paths files good :=
  Meets.of_ok rfl ⟨.refl before, holds⟩

/-- A step ends as it says, or it is refused and changes nothing. -/
theorem attempt {step : Volume → Except Failure (α × Volume)} {a : α} {after : Volume}
    (result : step before.ticked = .ok (a, after))
    (changes : Changes paths files before.ticked after) (holds : good a after) :
    Runs (Storage.attempt step) before paths files good := by
  have ticked : Changes paths files before before.ticked := (changes_ticked before).ofNothing
  exact Meets.attempt result ⟨ticked.trans changes, holds⟩ fun _ refused => ⟨ticked, refused⟩

/-- A step that only looks. -/
theorem look {step : Volume → Except Failure (α × Volume)} {a : α}
    (result : step before.ticked = .ok (a, before.ticked)) (holds : good a before.ticked) :
    Runs (Storage.attempt step) before Nowhere NoFile good :=
  attempt result (.refl _) holds

end Runs

/-! ## Single steps -/

/-- A step happens as it says, or it is refused and nothing happens. -/
def Happens (work : ExceptT ε (StateM Volume) α) (before : Volume) (paths : Path → Prop)
    (files : FileId → Prop) (good : α → Volume → Prop) : Prop :=
  Meets work before (fun a after => Changes paths files before after ∧ good a after)
    fun _ after => Changes Nowhere NoFile before after ∧ ¬before.Quiet

namespace Happens

variable {before : Volume} {work : ExceptT ε (StateM Volume) α} {paths : Path → Prop}
  {files : FileId → Prop} {good : α → Volume → Prop}

theorem runs (happens : Happens work before paths files good) :
    Runs work before paths files good :=
  Meets.mono happens (fun _ _ holds => holds) fun _ _ ⟨changes, refused⟩ =>
    ⟨changes.ofNothing, refused⟩

theorem attempt {step : Volume → Except Failure (α × Volume)} {a : α} {after : Volume}
    (result : step before.ticked = .ok (a, after))
    (changes : Changes paths files before.ticked after) (holds : good a after) :
    Happens (Storage.attempt step) before paths files good :=
  Meets.attempt result ⟨(changes_ticked before).ofNothing.trans changes, holds⟩
    fun _ refused => ⟨changes_ticked before, refused⟩

end Happens

/-! ## Work that only looks -/

/-- However this work ends, it changes nothing. -/
def Looks (work : ExceptT ε (StateM Volume) α) : Prop :=
  ∀ before, Meets work before (fun _ after => Changes Nowhere NoFile before after)
    fun _ after => Changes Nowhere NoFile before after

namespace Looks

variable {work : ExceptT ε (StateM Volume) α}

theorem pure (a : α) : Looks (Pure.pure a : ExceptT ε (StateM Volume) α) :=
  fun before => Meets.of_ok rfl (.refl before)

theorem throw (error : ε) : Looks (throw error : ExceptT ε (StateM Volume) α) :=
  fun before => Meets.of_error rfl (.refl before)

theorem bind {next : α → ExceptT ε (StateM Volume) β} (first : Looks work)
    (second : ∀ a, Looks (next a)) : Looks (work >>= next) := by
  intro before
  apply Meets.bind (first before)
  intro a middle changes
  apply Meets.mono (second a middle)
  · exact fun _ _ more => changes.trans more
  · exact fun _ _ more => changes.trans more

theorem adapt {work : ExceptT δ (StateM Volume) α} {rename : δ → ε} (looks : Looks work) :
    Looks (ExceptT.adapt rename work) :=
  fun before => Meets.adapt (looks before)

theorem tryCatch {handler : ε → ExceptT ε (StateM Volume) α} (first : Looks work)
    (second : ∀ error, Looks (handler error)) : Looks (MonadExcept.tryCatch work handler) := by
  intro before
  apply Meets.tryCatch (first before)
  intro error middle changes
  apply Meets.mono (second error middle)
  · exact fun _ _ more => changes.trans more
  · exact fun _ _ more => changes.trans more

/-- A step that leaves the volume alone if it succeeds. -/
theorem attempt {step : Volume → Except Failure (α × Volume)}
    (same : ∀ volume a after, step volume = .ok (a, after) → after = volume) :
    Looks (Storage.attempt step) := by
  intro before
  cases result : step before.ticked with
  | ok pair =>
      obtain ⟨a, after⟩ := pair
      have unchanged := same _ _ _ result
      exact Meets.attempt result (unchanged ▸ changes_ticked before) fun _ _ => changes_ticked before
  | error failure =>
      exact Meets.attempt_error result (changes_ticked before) fun _ _ => changes_ticked before

end Looks

end Storage

theorem Activity.runs {α : Type} {activity : Activity} {steps : Access α} {before : Volume}
    {paths : Path → Prop} {files : FileId → Prop} {good : α → Volume → Prop}
    (runs : Runs steps before paths files good) :
    Runs (activity.run steps) before paths files good :=
  Meets.adapt runs

attribute [irreducible] Meets

end FingerprintSet
