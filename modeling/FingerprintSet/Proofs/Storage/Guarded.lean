import FingerprintSet.Proofs.Storage.Leaving

/-!
# Work that may have no result

Machine words bound every number and slices bound every position.  Work that minds these bounds is
written like other work, but where it leaves them it has no result at all, not even an error.  It
agrees with work that does not mind them if it has a result, the same one.
-/

namespace FingerprintSet

open Storage

/-- A task that has no result where one of its steps has none. -/
abbrev GuardedTask := ExceptT Error (StateT Volume Option)

/-- Work around a state that has no result where one of its steps has none. -/
abbrev Guarded (σ : Type) := ExceptT Error (StateT σ (StateT Volume Option))

variable {σ τ α β : Type}

/-! ## Tasks -/

namespace GuardedTask

/-- A task that minds no bounds. -/
def plain (task : Task α) : GuardedTask α :=
  ExceptT.mk fun before => some (task before)

/-- What may have no result and takes no step. -/
def demand (result : Option α) : GuardedTask α :=
  ExceptT.mk fun before => result.map fun a => (.ok a, before)

/-- Do work around a state from a start and keep the state it ends with. -/
def build (state : σ) (work : Guarded σ α) : GuardedTask σ :=
  ExceptT.mk fun before =>
    (work state before).map fun ended => (ended.1.1.map fun _ => ended.1.2, ended.2)

/-- The task has a result on a volume, and it is that of a task that minds no bounds. -/
def Agrees (guarded : GuardedTask α) (task : Task α) (before : Volume) : Prop :=
  guarded before = some (task before)

namespace Agrees

variable {guarded : GuardedTask α} {task : Task α} {before : Volume}

theorem plain (task : Task α) (before : Volume) : Agrees (plain task) task before :=
  rfl

theorem pure (a : α) (before : Volume) : Agrees (Pure.pure a) (Pure.pure a) before :=
  rfl

theorem demandThen {result : Option β} {b : β} {next : β → GuardedTask α} (there : result = some b)
    (agrees : Agrees (next b) task before) : Agrees (demand result >>= next) task before := by
  subst there
  exact agrees

/-- Tasks agree that agree step by step. -/
theorem bind {next : α → GuardedTask β} {other : α → Task β} (first : Agrees guarded task before)
    (rest : ∀ a after, task before = (.ok a, after) → Agrees (next a) (other a) after) :
    Agrees (guarded >>= next) (task >>= other) before := by
  have unfolded : (guarded >>= next) before =
      (guarded before).bind fun ended => ExceptT.bindCont next ended.1 ended.2 := rfl
  rw [Agrees, unfolded, first, Storage.bind_apply]
  rcases ended : task before with ⟨error | a, after⟩
  · rfl
  · exact rest a after ended

theorem bindMeets {next : α → GuardedTask β} {other : α → Task β} {good : α → Volume → Prop}
    {bad : Error → Volume → Prop} (first : Agrees guarded task before)
    (meets : Meets task before good bad)
    (rest : ∀ a after, good a after → Agrees (next a) (other a) after) :
    Agrees (guarded >>= next) (task >>= other) before := by
  apply first.bind
  intro a after ended
  rcases meets.cases with ⟨_, _, result, there⟩ | ⟨_, _, result, -⟩ <;> rw [ended] at result
  · cases result
    exact rest a after there
  · cases result

/-- Rounds of a loop agree that agree on any volume. -/
theorem foldlM {round : α → β → GuardedTask α} {other : α → β → Task α}
    (rounds : ∀ a item before, Agrees (round a item) (other a item) before) (items : List β) (a : α)
    (before : Volume) : Agrees (items.foldlM round a) (items.foldlM other a) before := by
  induction items generalizing a before with
  | nil => exact pure a before
  | cons item items ih =>
      rw [List.foldlM_cons, List.foldlM_cons]
      exact (rounds a item before).bind fun next after _ => ih next after

/-- What is built agrees with what other work builds. -/
theorem build {state : σ} {guarded : Guarded σ α} {work : Keeping σ α}
    (agrees : guarded state before = some (work state before)) :
    Agrees (build state guarded) (Keeping.build state work) before := by
  rw [Agrees, GuardedTask.build, ExceptT.mk, agrees]
  rfl

end Agrees

/-- The task has a result, that of a task that minds no bounds, and unless this is an error, `good`
holds of it. -/
def Answers (guarded : GuardedTask α) (task : Task α) (before : Volume) (good : α → Volume → Prop) :
    Prop :=
  Agrees guarded task before ∧ Meets task before good fun _ _ => True

/-- Tasks go on from an answer and from whatever else is known of it. -/
theorem Answers.bind {guarded : GuardedTask α} {task : Task α} {before : Volume}
    {next : α → GuardedTask β} {other : α → Task β} {middle : α → Volume → Prop}
    {good : β → Volume → Prop} (first : Agrees guarded task before)
    (meets : Meets task before middle fun _ _ => True)
    (rest : ∀ a after, middle a after → Answers (next a) (other a) after good) :
    Answers (guarded >>= next) (task >>= other) before good :=
  ⟨first.bindMeets meets fun a after there => (rest a after there).1,
    Meets.bind meets fun a after there => (rest a after there).2⟩

end GuardedTask

/-! ## Work around a state -/

namespace Guarded

/-- Work that minds no bounds. -/
def plain (work : Keeping σ α) : Guarded σ α :=
  ExceptT.mk fun state before => some (work state before)

/-- What may have no result and takes no step. -/
def demand (result : Option α) : Guarded σ α :=
  ExceptT.mk fun state before => result.map fun a => ((.ok a, state), before)

/-- Change the state, if there is a state to change it to. -/
def update (change : σ → Option σ) : Guarded σ PUnit :=
  ExceptT.mk fun state before => (change state).map fun last => ((.ok ⟨⟩, last), before)

/-- Work around a part of a state. -/
def onPart [Inhabited τ] (part : σ → τ) (put : τ → σ → σ) (work : Guarded τ α) : Guarded σ α :=
  ExceptT.mk fun state before =>
    (work (part state) before).map fun ended =>
      ((ended.1.1, put ended.1.2 (put default state)), ended.2)

/-- Work around a state with the outcome, failure or not, as its result. -/
def outcome (work : Guarded σ α) : Guarded σ (Except Error α) :=
  ExceptT.mk fun state before =>
    (work state before).map fun ended => ((.ok ended.1.1, ended.1.2), ended.2)

/-- The work has a result from a state and a volume, and it is that of work that minds no bounds. -/
def Agrees (guarded : Guarded σ α) (work : Keeping σ α) (state : σ) (before : Volume) : Prop :=
  guarded state before = some (work state before)

namespace Agrees

variable {guarded : Guarded σ α} {work : Keeping σ α} {state : σ} {before : Volume}

theorem plain (work : Keeping σ α) (state : σ) (before : Volume) :
    Agrees (plain work) work state before :=
  rfl

theorem pure (a : α) (state : σ) (before : Volume) :
    Agrees (Pure.pure a) (Pure.pure a) state before :=
  rfl

theorem throw (error : Error) (state : σ) (before : Volume) :
    Agrees (MonadExcept.throw error : Guarded σ α) (MonadExcept.throw error) state before :=
  rfl

theorem demand {result : Option α} {a : α} (there : result = some a) (state : σ) (before : Volume) :
    Agrees (Guarded.demand result) (Pure.pure a) state before := by
  subst there
  rfl

theorem demandThen {result : Option β} {b : β} {next : β → Guarded σ α} (there : result = some b)
    (agrees : Agrees (next b) work state before) :
    Agrees (Guarded.demand result >>= next) work state before := by
  subst there
  exact agrees

theorem getThen {next : σ → Guarded σ α} {other : σ → Keeping σ α}
    (agrees : Agrees (next state) (other state) state before) :
    Agrees (get >>= next) (get >>= other) state before :=
  agrees

theorem update {change : σ → Option σ} {plainly : σ → σ} (there : change state = some (plainly state)) :
    Agrees (update change) (modify plainly) state before := by
  rw [Agrees, Guarded.update, ExceptT.mk, there]
  rfl

theorem updateThen {change : σ → Option σ} {plainly : σ → σ} {next : PUnit → Guarded σ α}
    {other : PUnit → Keeping σ α} (there : change state = some (plainly state))
    (agrees : Agrees (next ⟨⟩) (other ⟨⟩) (plainly state) before) :
    Agrees (Guarded.update change >>= next) (modify plainly >>= other) state before := by
  have unfolded : (Guarded.update change >>= next) state before =
      ((change state).map fun last => (((.ok ⟨⟩ : Except Error PUnit), last), before)).bind
        fun ended => ExceptT.bindCont next ended.1.1 ended.1.2 ended.2 := rfl
  rw [Agrees, unfolded, there]
  exact agrees

theorem modifyThen {change : σ → σ} {next : PUnit → Guarded σ α} {other : PUnit → Keeping σ α}
    (agrees : Agrees (next ⟨⟩) (other ⟨⟩) (change state) before) :
    Agrees (modify change >>= next) (modify change >>= other) state before :=
  agrees

theorem okThen {b : β} {next : β → Guarded σ α} {other : β → Keeping σ α}
    (agrees : Agrees (next b) (other b) state before) :
    Agrees (Guarded.plain (Keeping.ofExcept (.ok b)) >>= next)
      (Keeping.ofExcept (.ok b) >>= other) state before :=
  agrees

theorem onPart [Inhabited τ] {part : σ → τ} {put : τ → σ → σ} {guarded : Guarded τ α}
    {work : Keeping τ α} (agrees : Agrees guarded work (part state) before) :
    Agrees (Guarded.onPart part put guarded) (Keeping.onPart part put work) state before := by
  rw [Agrees, Guarded.onPart, ExceptT.mk, agrees]
  rfl

theorem outcome (agrees : Agrees guarded work state before) :
    Agrees (Guarded.outcome guarded) (Keeping.outcome work) state before := by
  rw [Agrees, Guarded.outcome, ExceptT.mk, agrees]
  rfl

/-- Work agrees that agrees step by step. -/
theorem bind {next : α → Guarded σ β} {other : α → Keeping σ β}
    (first : Agrees guarded work state before)
    (rest : ∀ a last after, work state before = ((.ok a, last), after) →
      Agrees (next a) (other a) last after) :
    Agrees (guarded >>= next) (work >>= other) state before := by
  have unfolded : (guarded >>= next) state before =
      (guarded state before).bind fun ended =>
        ExceptT.bindCont next ended.1.1 ended.1.2 ended.2 := rfl
  rw [Agrees, unfolded, first, Keeping.bind_apply]
  rcases ended : work state before with ⟨⟨error | a, last⟩, after⟩
  · rfl
  · exact rest a last after ended

/-- Work agrees step by step, going on from whatever is known in the middle. -/
theorem bindEnds {next : α → Guarded σ β} {other : α → Keeping σ β}
    {holds : Except Error α → σ → Volume → Prop} (first : Agrees guarded work state before)
    (ends : Keeping.Ends work state before holds)
    (rest : ∀ a last after, holds (.ok a) last after → Agrees (next a) (other a) last after) :
    Agrees (guarded >>= next) (work >>= other) state before := by
  apply first.bind
  intro a last after ended
  rw [Keeping.Ends, ended] at ends
  exact rest a last after ends

theorem bindRuns {next : α → Guarded σ β} {other : α → Keeping σ β} {paths : Path → Prop}
    {files : FileId → Prop} {good : α → σ → Volume → Prop} {bad : σ → Volume → Prop}
    (first : Agrees guarded work state before)
    (runs : Keeping.Runs work state before paths files good bad)
    (rest : ∀ a last after, Volume.Changes paths files before after → good a last after →
      Agrees (next a) (other a) last after) :
    Agrees (guarded >>= next) (work >>= other) state before := by
  have ends : Keeping.Ends work state before fun result last after =>
      ∀ a, result = .ok a → Volume.Changes paths files before after ∧ good a last after := by
    apply Keeping.Ends.of_runs runs
    · rintro a last after changes there _ ⟨⟩
      exact ⟨changes, there⟩
    · exact fun _ _ _ _ _ _ _ impossible => nomatch impossible
  apply first.bindEnds ends
  intro a last after holds
  exact rest a last after (holds a rfl).1 (holds a rfl).2

/-- What is known of the state in the middle may be known whatever the volume is like. -/
theorem bindLeaves {next : α → Guarded σ β} {other : α → Keeping σ β}
    {holds : Except Error α → σ → Prop} (first : Agrees guarded work state before)
    (leaves : Keeping.Leaves work state holds)
    (rest : ∀ a last after, holds (.ok a) last → Agrees (next a) (other a) last after) :
    Agrees (guarded >>= next) (work >>= other) state before := by
  have ends : Keeping.Ends work state before fun result last _ => holds result last := by
    rw [Keeping.Ends]
    exact leaves before
  exact first.bindEnds ends fun a last after there => rest a last after there

/-- Work on the volume alone agrees with itself, and what comes then starts from the same state. -/
theorem plainThen {task : Task β} {next : β → Guarded σ α} {other : β → Keeping σ α}
    (rest : ∀ b after, task before = (.ok b, after) → Agrees (next b) (other b) state after) :
    Agrees (Guarded.plain (liftM task) >>= next) (liftM task >>= other) state before := by
  apply (plain (liftM task) state before).bind
  intro b last after ended
  rw [Keeping.lift_apply] at ended
  rcases result : task before with ⟨outcome, final⟩
  rw [result] at ended
  obtain ⟨⟨rfl, rfl⟩, rfl⟩ := Prod.mk.inj ended |>.imp_left Prod.mk.inj
  exact rest b _ result

/-- Work on the volume alone agrees with itself, going on from whatever is known of its result. -/
theorem plainMeets {task : Task β} {next : β → Guarded σ α} {other : β → Keeping σ α}
    {good : β → Volume → Prop} {bad : Error → Volume → Prop} (meets : Meets task before good bad)
    (rest : ∀ b after, good b after → Agrees (next b) (other b) state after) :
    Agrees (Guarded.plain (liftM task) >>= next) (liftM task >>= other) state before := by
  apply plainThen
  intro b after ended
  rcases meets.cases with ⟨_, _, result, there⟩ | ⟨_, _, result, -⟩ <;> rw [ended] at result
  · obtain ⟨⟨⟩, rfl⟩ := Prod.mk.inj result
    exact rest _ _ there
  · exact nomatch (Prod.mk.inj result).1

/-- Work on the volume alone agrees with itself, and both of its outcomes can be gone on from. -/
theorem outcomeMeets {task : Task β} {next : Except Error β → Guarded σ α}
    {other : Except Error β → Keeping σ α} {good : β → Volume → Prop}
    {bad : Error → Volume → Prop} (meets : Meets task before good bad)
    (answered : ∀ b after, good b after → Agrees (next (.ok b)) (other (.ok b)) state after)
    (failed : ∀ error after, bad error after →
      Agrees (next (.error error)) (other (.error error)) state after) :
    Agrees (Guarded.plain (Keeping.outcome (liftM task)) >>= next)
      (Keeping.outcome (liftM task) >>= other) state before := by
  apply (plain _ state before).bind
  intro outcome last after ended
  have unfolded : Keeping.outcome (liftM task : Keeping σ β) state before =
      ((.ok (task before).1, state), (task before).2) := rfl
  rw [unfolded] at ended
  rcases meets.cases with ⟨b, final, result, there⟩ | ⟨error, final, result, there⟩ <;>
    rw [result] at ended <;> cases ended
  · exact answered b final there
  · exact failed error final there

theorem tryCatch {handler : Error → Guarded σ α} {other : Error → Keeping σ α}
    (first : Agrees guarded work state before)
    (rest : ∀ error last after, work state before = ((.error error, last), after) →
      Agrees (handler error) (other error) last after) :
    Agrees (MonadExcept.tryCatch guarded handler) (MonadExcept.tryCatch work other) state before := by
  let next : Except Error α → StateT σ (StateT Volume Option) (Except Error α)
    | .ok a => Pure.pure (.ok a)
    | .error error => handler error
  have caught : (MonadExcept.tryCatch guarded handler : Guarded σ α) =
      (ExceptT.run guarded >>= next) := by
    show ExceptT.tryCatch guarded handler = _
    unfold ExceptT.tryCatch
    refine bind_congr fun result => ?_
    cases result <;> rfl
  have unfolded : (MonadExcept.tryCatch guarded handler : Guarded σ α) state before =
      (guarded state before).bind fun ended => next ended.1.1 ended.1.2 ended.2 := by
    rw [caught]
    rfl
  rw [Agrees, unfolded, first, Keeping.tryCatch_apply]
  rcases ended : work state before with ⟨⟨error | a, last⟩, after⟩
  · exact rest error last after ended
  · rfl

/-- The rounds of a loop agree as long as each hands on to the next what is known. -/
theorem foldRange {round : β → Nat → Guarded σ β} {other : β → Nat → Keeping σ β} {b : β}
    (inv : Nat → β → σ → Volume → Prop) (start : inv 0 b state before) (count : Nat)
    (agree : ∀ n < count, ∀ b state before, inv n b state before →
      Agrees (round b n) (other b n) state before)
    (handsOn : ∀ n < count, ∀ b state before, inv n b state before →
      Keeping.Ends (other b n) state before fun result last after =>
        ∀ next, result = .ok next → inv (n + 1) next last after) :
    Agrees ((List.range count).foldlM round b) ((List.range count).foldlM other b) state before := by
  suffices both : Agrees ((List.range count).foldlM round b) ((List.range count).foldlM other b)
      state before ∧ Keeping.Ends ((List.range count).foldlM other b) state before
        fun result last after => ∀ final, result = .ok final → inv count final last after from both.1
  induction count with
  | zero =>
      refine ⟨pure b state before, Keeping.Ends.of_eq rfl ?_⟩
      rintro _ ⟨⟩
      exact start
  | succ count ih =>
      obtain ⟨agrees, reaches⟩ := ih (fun n below => agree n (Nat.lt_succ_of_lt below))
        fun n below => handsOn n (Nat.lt_succ_of_lt below)
      rw [List.range_succ, List.foldlM_append, List.foldlM_append]
      constructor
      · apply agrees.bindEnds reaches
        intro next last after known
        have agree := agree count (Nat.lt_succ_self count) next last after (known next rfl)
        exact agree.bind fun final last after _ => pure final last after
      · apply reaches.bind fun _ _ _ _ _ impossible => nomatch impossible
        intro next last after known
        rw [List.foldlM_cons]
        have ends := handsOn count (Nat.lt_succ_self count) next last after (known next rfl)
        apply ends.bind fun _ _ _ _ _ impossible => nomatch impossible
        exact fun final last after there => Keeping.Ends.of_eq rfl there

end Agrees

end Guarded

end FingerprintSet
