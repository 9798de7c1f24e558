import FingerprintSet.Proofs.Storage.Keeping
import FingerprintSet.Proofs.Storage.Region

/-!
# Work that keeps to a region

The judgement for work in a region and its rules: on volumes that look alike there it has the same
result and leaves them looking alike, and it touches nothing else.  Whatever is put together by the
rules from work that keeps to a region keeps to it as well.
-/

namespace FingerprintSet

open Storage Volume

namespace Storage.Region

variable {region : Region} {ε δ σ τ α β : Type}

/-- The same came of two volumes that looked alike, and it kept to the region.  Something is known
of it, which may tell how many files are known by now. -/
structure Agree (region : Region) (good : α → Nat → Prop) (before : Volume)
    (one two : α × Volume) : Prop where
  same : one.1 = two.1
  alike : region.Alike one.2 two.2
  keeps : region.Keeps before one.2
  holds : good one.1 one.2.contents.size

/-- A function keeps to a region. -/
def Confines (region : Region) (step : Volume → α × Volume) (good : α → Nat → Prop) : Prop :=
  ∀ first second, region.Alike first second → region.Agree good first (step first) (step second)

/-- Work that can fail keeps to a region, and something is known of what it results in. -/
def ConfinesTask (region : Region) (work : ExceptT ε (StateM Volume) α) (good : α → Prop) : Prop :=
  region.Confines work fun result _ => ∀ a, result = .ok a → good a

/-- What holds of a state on a volume with so many files, and still does with more of them. -/
structure Custody (σ : Type) where
  holds : Nat → σ → Prop
  grows : ∀ {few many state}, few ≤ many → holds few state → holds many state

/-- What holds of a state whatever the volume is. -/
def Custody.always (holds : σ → Prop) : Custody σ where
  holds _ state := holds state
  grows _ here := here

/-- What holds of a state in one of several ways. -/
def Custody.some {ι : Type} (kept : ι → Custody σ) : Custody σ where
  holds files state := ∃ i, (kept i).holds files state
  grows more := fun ⟨i, here⟩ => ⟨i, (kept i).grows more here⟩

/-- Work around a state keeps to a region, and the state is kept as it should be. -/
def ConfinesKeeping (region : Region) (kept : Custody σ) (work : Keeping σ α) (good : α → Prop) :
    Prop :=
  ∀ state first second, region.Alike first second → kept.holds first.contents.size state →
    region.Agree (fun result files => kept.holds files result.2 ∧ ∀ a, result.1 = .ok a → good a)
      first (work state first) (work state second)

/-- Work that results in a state keeps to a region. -/
def ConfinesMaking (region : Region) (work : ExceptT ε (StateM Volume) σ) (kept : Custody σ) :
    Prop :=
  region.Confines work fun result files => ∀ state, result = .ok state → kept.holds files state

/-! ## Putting work together -/

namespace Agree

variable {good : α → Nat → Prop} {before : Volume} {one two : α × Volume}

theorem andThen {last : β → Nat → Prop} (agree : region.Agree good before one two)
    (next : α → Volume → β × Volume)
    (goesOn : ∀ a first second, region.Alike first second → good a first.contents.size →
      region.Agree last first (next a first) (next a second)) :
    region.Agree last before (next one.1 one.2) (next two.1 two.2) := by
  have later := goesOn one.1 one.2 two.2 agree.alike agree.holds
  rw [← agree.same]
  exact ⟨later.same, later.alike, agree.keeps.trans later.keeps, later.holds⟩

theorem here {a : α} {first second : Volume} (alike : region.Alike first second)
    (holds : good a first.contents.size) : region.Agree good first (a, first) (a, second) :=
  ⟨rfl, alike, .refl first, holds⟩

end Agree

namespace Confines

variable {step : Volume → α × Volume} {good more : α → Nat → Prop}

theorem mono (confines : region.Confines step good) (sub : ∀ a files, good a files → more a files) :
    region.Confines step more := fun first second alike =>
  { confines first second alike with holds := sub _ _ (confines first second alike).holds }

theorem pure {a : α} (holds : ∀ files, good a files) :
    region.Confines (fun volume => (a, volume)) good :=
  fun _ _ alike => .here alike (holds _)

/-- One function after another, whatever the work that they make up. -/
theorem andThen {whole : Volume → β × Volume} {last : β → Nat → Prop}
    (confines : region.Confines step good) (next : α → Volume → β × Volume)
    (split : ∀ volume, whole volume = next (step volume).1 (step volume).2)
    (goesOn : ∀ a files, good a files → region.Confines (next a) last) :
    region.Confines whole last := by
  intro first second alike
  rw [split, split]
  exact (confines first second alike).andThen next fun a first second alike holds =>
    goesOn a _ holds first second alike

theorem bind {step : StateM Volume α} {next : α → StateM Volume β} {last : β → Nat → Prop}
    (first : region.Confines step good)
    (second : ∀ a files, good a files → region.Confines (next a) last) :
    region.Confines (step >>= next) last :=
  first.andThen next (fun _ => rfl) second

/-- Another name for failures. -/
theorem adapt {steps : ExceptT δ (StateM Volume) α} {rename : δ → ε}
    (confines : region.Confines steps fun result files => ∀ a, result = .ok a → good a files) :
    region.Confines (ExceptT.adapt rename steps : ExceptT ε (StateM Volume) α)
      fun result files => ∀ a, result = .ok a → good a files := by
  intro first second alike
  have agree := confines first second alike
  refine ⟨congrArg (·.mapError rename) agree.same, agree.alike, agree.keeps, fun a same => ?_⟩
  have told : (steps first).1.mapError rename = .ok a := same
  cases ended : (steps first).1 with
  | ok b =>
      rw [ended] at told
      exact agree.holds a (ended.trans (congrArg Except.ok (Except.ok.inj told)))
  | error error =>
      rw [ended] at told
      exact nomatch told

end Confines

namespace ConfinesMaking

variable {kept : Custody σ} {more : Custody τ}

theorem pure {state : σ} (here : ∀ files, kept.holds files state) :
    region.ConfinesMaking (Pure.pure state : ExceptT ε (StateM Volume) σ) kept :=
  Confines.pure fun files _ same => Except.ok.inj same ▸ here files

theorem run {activity : Activity} {steps : Access σ} (makes : region.ConfinesMaking steps kept) :
    region.ConfinesMaking (activity.run steps) kept :=
  Confines.adapt makes

/-- What is made becomes part of something else. -/
theorem map {work : Task σ} {f : σ → τ} (makes : region.ConfinesMaking work kept)
    (sub : ∀ state files, kept.holds files state → more.holds files (f state)) :
    region.ConfinesMaking (f <$> work) more := by
  have unfolded (volume : Volume) :
      (f <$> work) volume = ((work volume).1.map f, (work volume).2) := by
    have bound : (f <$> work) volume = ExceptT.bindCont (m := StateM Volume)
        (fun state => Pure.pure (f state)) (work volume).1 (work volume).2 := by
      rw [map_eq_pure_bind]
      rfl
    rw [bound]
    rcases work volume with ⟨error | state, after⟩ <;> rfl
  intro first second alike
  have agree := makes first second alike
  rw [unfolded, unfolded]
  refine ⟨congrArg (·.map f) agree.same, agree.alike, agree.keeps, fun made same => ?_⟩
  cases ended : (work first).1 with
  | error error =>
      rw [ended] at same
      exact nomatch same
  | ok state =>
      rw [ended] at same
      exact Except.ok.inj same ▸ sub state _ (agree.holds state ended)

end ConfinesMaking

namespace ConfinesTask

variable {work : ExceptT ε (StateM Volume) α} {good more : α → Prop} {goodThen : β → Prop}

theorem mono (confines : region.ConfinesTask work good) (sub : ∀ a, good a → more a) :
    region.ConfinesTask work more :=
  Confines.mono confines fun _ _ holds a same => sub a (holds a same)

theorem pure {a : α} (holds : good a) :
    region.ConfinesTask (Pure.pure a : ExceptT ε (StateM Volume) α) good :=
  Confines.pure fun _ _ same => Except.ok.inj same ▸ holds

theorem throw (error : ε) :
    region.ConfinesTask (throw error : ExceptT ε (StateM Volume) α) good :=
  Confines.pure fun _ _ impossible => nomatch impossible

/-- What comes after work that can fail, whatever is wanted in the end. -/
theorem bindTo {next : α → ExceptT ε (StateM Volume) β} {last : Except ε β → Nat → Prop}
    (first : region.ConfinesTask work good)
    (second : ∀ a, good a → region.Confines (next a) last)
    (fails : ∀ error files, last (.error error) files) : region.Confines (work >>= next) last := by
  refine Confines.andThen first (ExceptT.bindCont next) (fun _ => rfl) fun result _ holds => ?_
  cases result with
  | ok a => exact second a (holds a rfl)
  | error error => exact Confines.pure (fails error)

theorem bindMaking {next : α → ExceptT ε (StateM Volume) σ} {kept : Custody σ}
    (first : region.ConfinesTask work good)
    (second : ∀ a, good a → region.ConfinesMaking (next a) kept) :
    region.ConfinesMaking (work >>= next) kept :=
  first.bindTo second fun _ _ _ impossible => nomatch impossible

theorem bind {next : α → ExceptT ε (StateM Volume) β} (first : region.ConfinesTask work good)
    (second : ∀ a, good a → region.ConfinesTask (next a) goodThen) :
    region.ConfinesTask (work >>= next) goodThen :=
  first.bindTo second fun _ _ _ impossible => nomatch impossible

theorem tryCatch {handler : ε → ExceptT ε (StateM Volume) α}
    (first : region.ConfinesTask work good)
    (second : ∀ error, region.ConfinesTask (handler error) good) :
    region.ConfinesTask (MonadExcept.tryCatch work handler) good := by
  refine Confines.andThen first
    (fun
      | .ok a => (Pure.pure a : ExceptT ε (StateM Volume) α)
      | .error error => handler error)
    (fun volume => ?_) fun result _ holds => ?_
  · rw [Storage.tryCatch_apply]
    rcases work volume with ⟨error | a, after⟩ <;> rfl
  · cases result with
    | ok a => exact pure (holds a rfl)
    | error error => exact second error

theorem adapt {steps : ExceptT δ (StateM Volume) α} {rename : δ → ε}
    (confines : region.ConfinesTask steps good) :
    region.ConfinesTask (ExceptT.adapt rename steps : ExceptT ε (StateM Volume) α) good :=
  Confines.adapt confines

theorem ofExcept {result : Except Error α} (holds : ∀ a, result = .ok a → good a) :
    region.ConfinesTask (Task.ofExcept result) good :=
  Confines.pure fun _ => holds

theorem run {activity : Activity} {steps : Access α} (confines : region.ConfinesTask steps good) :
    region.ConfinesTask (activity.run steps) good :=
  adapt confines

theorem map {f : α → β} (confines : region.ConfinesTask work good)
    (sub : ∀ a, good a → goodThen (f a)) : region.ConfinesTask (f <$> work) goodThen := by
  rw [map_eq_pure_bind]
  exact confines.bind fun a holds => pure (sub a holds)

/-- A function without failures as the first part of work. -/
theorem liftThen {step : StateM Volume α} {next : α → ExceptT ε (StateM Volume) β}
    {good : α → Nat → Prop} (first : region.Confines step good)
    (second : ∀ a files, good a files → region.ConfinesTask (next a) goodThen) :
    region.ConfinesTask ((liftM step : ExceptT ε (StateM Volume) α) >>= next) goodThen :=
  Confines.andThen first next (fun _ => rfl) second

theorem lift {step : StateM Volume α} (confines : region.Confines step fun a _ => good a) :
    region.ConfinesTask (liftM step : ExceptT ε (StateM Volume) α) good :=
  Confines.andThen confines (fun a volume => (.ok a, volume)) (fun _ => rfl)
    fun _ _ holds => Confines.pure fun _ _ same => Except.ok.inj same ▸ holds

/-- A look at the volume before anything else. -/
theorem getVolumeThen {next : Volume → ExceptT ε (StateM Volume) α}
    (same : ∀ first second, region.Alike first second → next first = next second)
    (confines : ∀ volume, region.ConfinesTask (next volume) good) :
    region.ConfinesTask (getThe Volume >>= next) good := by
  intro first second alike
  have unfolded (volume : Volume) :
      (getThe Volume >>= next : ExceptT ε (StateM Volume) α) volume = next volume volume := rfl
  rw [unfolded, unfolded, ← same first second alike]
  exact confines first first second alike

/-- A look at the volume whose answer depends on the region only. -/
theorem inspect {view : Volume → α} {good : α → Prop}
    (same : ∀ first second, region.Alike first second → view first = view second)
    (holds : ∀ volume, good (view volume)) : region.ConfinesTask (inspect view) good :=
  fun first second alike =>
    { same := congrArg Except.ok (same first second alike)
      alike := alike
      keeps := .refl first
      holds := fun _ told => Except.ok.inj told ▸ holds first }

theorem foldlM {step : β → α → ExceptT ε (StateM Volume) β} {good : β → Prop} {items : List α}
    (each : ∀ b, ∀ item ∈ items, good b → region.ConfinesTask (step b item) good) {b : β}
    (holds : good b) : region.ConfinesTask (items.foldlM step b) good := by
  induction items generalizing b with
  | nil => exact pure holds
  | cons item items ih =>
      rw [List.foldlM_cons]
      refine (each b item List.mem_cons_self holds).bind fun next nextHolds => ?_
      exact ih (fun b other mem => each b other (List.mem_cons_of_mem _ mem)) nextHolds

theorem forM {step : α → ExceptT ε (StateM Volume) PUnit} {items : List α}
    (each : ∀ item ∈ items, region.ConfinesTask (step item) fun _ => True) :
    region.ConfinesTask (items.forM step) fun _ => True := by
  induction items with
  | nil => exact pure trivial
  | cons item items ih =>
      refine (each item List.mem_cons_self).bind fun _ _ => ?_
      exact ih fun other mem => each other (List.mem_cons_of_mem _ mem)

end ConfinesTask

namespace ConfinesKeeping

variable {kept : Custody σ} {work : Keeping σ α} {good : α → Prop} {goodThen : β → Prop}

/-- Work that keeps a state in every single way keeps it in one of them. -/
theorem some {ι : Type} {kept : ι → Custody σ}
    (confines : ∀ i, region.ConfinesKeeping (kept i) work good) :
    region.ConfinesKeeping (.some kept) work good := fun state first second alike ⟨i, here⟩ =>
  have agree := confines i state first second alike here
  { agree with holds := ⟨⟨i, agree.holds.1⟩, agree.holds.2⟩ }

theorem pure {a : α} (holds : good a) :
    region.ConfinesKeeping kept (Pure.pure a : Keeping σ α) good :=
  fun _ _ _ alike here => .here alike ⟨here, fun _ same => Except.ok.inj same ▸ holds⟩

theorem throw (error : Error) :
    region.ConfinesKeeping kept (throw error : Keeping σ α) good :=
  fun _ _ _ alike here => .here alike ⟨here, fun _ impossible => nomatch impossible⟩

theorem ofExcept {result : Except Error α} (holds : ∀ a, result = .ok a → good a) :
    region.ConfinesKeeping kept (Keeping.ofExcept result : Keeping σ α) good :=
  fun _ _ _ alike here => .here alike ⟨here, holds⟩

/-- Work on the volume alone keeps the state, though there may be more files then. -/
theorem lift {task : Task α} (confines : region.ConfinesTask task good) :
    region.ConfinesKeeping kept (liftM task : Keeping σ α) good :=
  fun state first second alike here =>
    have agree := confines first second alike
    { same := congrArg (·, state) agree.same
      alike := agree.alike
      keeps := agree.keeps
      holds := ⟨kept.grows agree.keeps.size_le here, agree.holds⟩ }

theorem bind {next : α → Keeping σ β} (first : region.ConfinesKeeping kept work good)
    (second : ∀ a, good a → region.ConfinesKeeping kept (next a) goodThen) :
    region.ConfinesKeeping kept (work >>= next) goodThen := by
  intro state one two alike here
  refine (first state one two alike here).andThen
    (fun result => ExceptT.bindCont next result.1 result.2) fun result one two alike holds => ?_
  obtain ⟨error | a, last⟩ := result
  · exact throw error last one two alike holds.1
  · exact second a (holds.2 a rfl) last one two alike holds.1

theorem tryCatch {handler : Error → Keeping σ α} (first : region.ConfinesKeeping kept work good)
    (second : ∀ error, region.ConfinesKeeping kept (handler error) good) :
    region.ConfinesKeeping kept (MonadExcept.tryCatch work handler) good := by
  intro state one two alike here
  let goesOn : Except Error α × σ → Volume → (Except Error α × σ) × Volume
    | (.ok a, last) => (Pure.pure a : Keeping σ α) last
    | (.error error, last) => handler error last
  have split (volume : Volume) : MonadExcept.tryCatch work handler state volume =
      goesOn (work state volume).1 (work state volume).2 := by
    rw [Keeping.tryCatch_apply]
    rcases work state volume with ⟨⟨error | a, last⟩, after⟩ <;> rfl
  rw [split, split]
  refine (first state one two alike here).andThen goesOn fun result one two alike holds => ?_
  obtain ⟨error | a, last⟩ := result
  · exact second error last one two alike holds.1
  · exact pure (holds.2 a rfl) last one two alike holds.1

theorem getThen {next : σ → Keeping σ β}
    (confines : ∀ state files, kept.holds files state →
      region.ConfinesKeeping kept (next state) goodThen) :
    region.ConfinesKeeping kept (get >>= next) goodThen :=
  fun state first second alike here => confines state _ here state first second alike here

theorem modifying {change : σ → σ}
    (keeps : ∀ state files, kept.holds files state → kept.holds files (change state)) :
    region.ConfinesKeeping kept (modify change) fun _ => True :=
  fun state _ _ alike here => .here alike ⟨keeps state _ here, fun _ _ => trivial⟩

theorem modifyThen {change : σ → σ} {next : PUnit → Keeping σ β}
    (keeps : ∀ state files, kept.holds files state → kept.holds files (change state))
    (confines : region.ConfinesKeeping kept (next ⟨⟩) goodThen) :
    region.ConfinesKeeping kept (modify change >>= next) goodThen :=
  (modifying keeps).bind fun _ _ => confines

theorem modifyGet {change : σ → α × σ}
    (keeps : ∀ state files, kept.holds files state → kept.holds files (change state).2)
    (holds : ∀ state, good (change state).1) :
    region.ConfinesKeeping kept (MonadState.modifyGet change) good :=
  fun state _ _ alike here =>
    .here alike ⟨keeps state _ here, fun _ same => Except.ok.inj same ▸ holds state⟩

/-- What work makes goes into the state. -/
theorem takeIn {task : Task τ} {keptPart : Custody τ} {change : τ → σ → σ} {next : τ → Keeping σ β}
    (makes : region.ConfinesMaking task keptPart)
    (keeps : ∀ part state files, keptPart.holds files part → kept.holds files state →
      kept.holds files (change part state))
    (confines : ∀ part files, keptPart.holds files part →
      region.ConfinesKeeping kept (next part) goodThen) :
    region.ConfinesKeeping kept
      ((liftM task : Keeping σ τ) >>= fun part => modify (change part) >>= fun _ => next part)
      goodThen := by
  intro state one two alike here
  have made := makes one two alike
  have lifted : region.Agree (fun result files => kept.holds files result.2 ∧
      ∀ part, result.1 = .ok part → keptPart.holds files part) one
      ((liftM task : Keeping σ τ) state one) ((liftM task : Keeping σ τ) state two) :=
    ⟨congrArg (·, state) made.same, made.alike, made.keeps,
      kept.grows made.keeps.size_le here, made.holds⟩
  refine lifted.andThen (fun result => ExceptT.bindCont (m := StateT σ (StateM Volume))
    (fun part => modify (change part) >>= fun _ => next part) result.1 result.2)
    fun result one two alike holds => ?_
  obtain ⟨error | part, last⟩ := result
  · exact throw error last one two alike holds.1
  · have there := holds.2 part rfl
    exact confines part _ there _ one two alike (keeps part last _ there holds.1)

/-- Work around a part of the state. -/
theorem onPart [Inhabited τ] {part : σ → τ} {put : τ → σ → σ} {work : Keeping τ α}
    {keptPart : Custody τ} (confines : region.ConfinesKeeping keptPart work good)
    (there : ∀ state files, kept.holds files state → keptPart.holds files (part state))
    (back : ∀ state inner files, kept.holds files state → keptPart.holds files inner →
      kept.holds files (put inner (put default state))) :
    region.ConfinesKeeping kept (Keeping.onPart part put work) good :=
  fun state first second alike here =>
    have agree := confines (part state) first second alike (there state _ here)
    { same := congrArg (fun result => (result.1, put result.2 (put default state))) agree.same
      alike := agree.alike
      keeps := agree.keeps
      holds :=
        ⟨back state _ _ (kept.grows agree.keeps.size_le here) agree.holds.1, agree.holds.2⟩ }

theorem outcome (confines : region.ConfinesKeeping kept work good) :
    region.ConfinesKeeping kept (Keeping.outcome work) fun result =>
      ∀ a, result = .ok a → good a := fun state first second alike here =>
  have agree := confines state first second alike here
  { same := congrArg (fun result => (Except.ok result.1, result.2)) agree.same
    alike := agree.alike
    keeps := agree.keeps
    holds := ⟨agree.holds.1, fun _ same => Except.ok.inj same ▸ agree.holds.2⟩ }

theorem build {state : σ} (confines : region.ConfinesKeeping kept work good)
    (here : ∀ files, kept.holds files state) :
    region.ConfinesMaking (Keeping.build state work) kept := fun first second alike =>
  have agree := confines state first second alike (here _)
  { same := congrArg (fun result => result.1.map fun _ => result.2) agree.same
    alike := agree.alike
    keeps := agree.keeps
    holds := by
      intro last same
      have told : (work state first).1.1.map (fun _ => (work state first).1.2) = .ok last := same
      cases ended : (work state first).1.1 with
      | error error =>
          rw [ended] at told
          exact nomatch told
      | ok a =>
          rw [ended] at told
          exact Except.ok.inj told ▸ agree.holds.1 }

theorem foldlM {step : β → α → Keeping σ β} {good : β → Prop} {items : List α}
    (each : ∀ b, ∀ item ∈ items, good b → region.ConfinesKeeping kept (step b item) good) {b : β}
    (holds : good b) : region.ConfinesKeeping kept (items.foldlM step b) good := by
  induction items generalizing b with
  | nil => exact pure holds
  | cons item items ih =>
      rw [List.foldlM_cons]
      refine (each b item List.mem_cons_self holds).bind fun next nextHolds => ?_
      exact ih (fun b other mem => each b other (List.mem_cons_of_mem _ mem)) nextHolds

theorem forM {step : α → Keeping σ PUnit} {items : List α}
    (each : ∀ item ∈ items, region.ConfinesKeeping kept (step item) fun _ => True) :
    region.ConfinesKeeping kept (items.forM step) fun _ => True := by
  induction items with
  | nil => exact pure trivial
  | cons item items ih =>
      refine (each item List.mem_cons_self).bind fun _ _ => ?_
      exact ih fun other mem => each other (List.mem_cons_of_mem _ mem)

end ConfinesKeeping

end Storage.Region

end FingerprintSet
