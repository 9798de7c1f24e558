import FingerprintSet.Proofs.OpenSet.Lives
import FingerprintSet.Proofs.OpenSet.Turns

/-!
# Checkpoints turn by turn

A set is put to and asked to begin and to commit checkpoints in any order, and on the way steps are
refused: any of those of a put or of a beginning, and the renaming of a commit.  Somebody else may
make directories under the names of generations.  Whatever was refused, what waits to be committed,
the number it was given and what is on the volume stay in step.
-/

namespace FingerprintSet

open Storage Volume Checkpoint

namespace OpenSet

/-- What may come next. -/
inductive Turn
  | put (fp : Fingerprint) (faults : Nat → Option Errno)
  | begin (faults : Nat → Option Errno)
  /-- The first step of a commit is the renaming. -/
  | commit (refusal : Option Errno)
  | appear (entry : String)

/-- A checkpoint that was begun: its number, and the volume just before that and just after. -/
structure Begun where
  number : Nat
  found : Volume
  written : Volume

/-- A set in use, and what became of its checkpoints.  Those published are noted latest first. -/
structure Scene where
  set : OpenSet
  volume : Volume
  begun : Option Begun
  published : List Begun

namespace Scene

/-- The scene once a set has been opened. -/
def opened (set : OpenSet) (volume : Volume) : Scene where
  set := set
  volume := volume
  begun := none
  published := []

/-- The checkpoints that were begun and committed, and before them the one that waits. -/
def all (scene : Scene) : List Begun :=
  scene.begun.toList ++ scene.published

/-- How beginning a checkpoint ends. -/
def beginning (scene : Scene) (faults : Nat → Option Errno) : (Except Error Unit × OpenSet) × Volume :=
  beginCheckpoint scene.set (scene.volume.reschedule faults)

/-- How committing ends if nothing but its first step is refused. -/
def committing (scene : Scene) (refusal : Option Errno) : (Except Error Unit × OpenSet) × Volume :=
  commitCheckpoint scene.set
    (scene.volume.reschedule fun tick => if tick = scene.volume.clock then refusal else none)

/-- The scene after a turn. -/
def take (dir : Path) (scene : Scene) : Turn → Scene
  | .put fp faults =>
      let ended := OpenSet.put fp scene.set (scene.volume.reschedule faults)
      { scene with set := ended.1.2, volume := ended.2 }
  | .begin faults =>
      match scene.beginning faults with
      | ((.ok _, set), volume) =>
          let begun := { number := set.keeper.nextGeneration, found := scene.volume, written := volume }
          { scene with set, volume, begun := some begun }
      | ((.error _, set), volume) => { scene with set, volume }
  | .commit refusal =>
      match scene.committing refusal with
      | ((.ok _, set), volume) => { set, volume, begun := none, published := scene.all }
      | ((.error _, set), volume) => { scene with set, volume }
  | .appear entry =>
      let volume := scene.volume.reschedule fun _ => none
      { scene with volume := (makeDirectories (dir.child entry) volume).2 }

/-- The scene after some turns. -/
def run (dir : Path) (turns : List Turn) (scene : Scene) : Scene :=
  turns.foldl (take dir) scene

/-! ## What a turn keeps -/

/-- The keeper's note of what waits, the staging directory and the numbers agree with what became of
the checkpoints. -/
structure Sound (dir : Path) (name : String) (most spent : Nat) (scene : Scene) : Prop where
  orderly : scene.set.Orderly dir name most spent scene.volume
  waits : scene.set.keeper.staged.map (·.generation) = scene.begun.map (·.number)
  written : ∀ begun, scene.begun = some begun →
    SameTree begun.written (dir.child (stagingName name)) scene.volume (dir.child (stagingName name))
  above : ∀ begun ∈ scene.all, ∀ item, Stands begun.found dir name item → item.1 < begun.number
  behind : ∀ begun ∈ scene.published, begun.number < scene.set.keeper.nextGeneration
  ordered : scene.published.Pairwise fun later earlier => earlier.number < later.number

variable {dir : Path} {name : String} {most spent : Nat} {scene : Scene} {set last : OpenSet}
  {before after : Volume} {begun : Begun} {faults : Nat → Option Errno}

/-- Something waits if a checkpoint was begun. -/
theorem Sound.staged_eq_none_iff (sound : scene.Sound dir name most spent) :
    scene.set.keeper.staged = none ↔ scene.begun = none := by
  have waits := sound.waits
  cases staged : scene.set.keeper.staged <;> cases begun : scene.begun <;>
    simp [staged, begun] at waits ⊢

/-- What waits has the number that was given last. -/
theorem Sound.staged (sound : scene.Sound dir name most spent) (begun_ : scene.begun = some begun) :
    ∃ manifest, scene.set.keeper.staged = some manifest ∧ manifest.generation = begun.number ∧
      begun.number = scene.set.keeper.nextGeneration := by
  have waits := sound.waits
  rw [begun_] at waits
  obtain ⟨manifest, staged, number⟩ := Option.map_eq_some_iff.mp waits
  exact ⟨manifest, staged, number, number.symm.trans (sound.orderly.charge.waits manifest staged).1⟩

theorem Sound.ordered_all (sound : scene.Sound dir name most spent) :
    scene.all.Pairwise fun later earlier => earlier.number < later.number := by
  rw [all]
  cases begun : scene.begun with
  | none => exact sound.ordered
  | some latest =>
      obtain ⟨_, -, -, number⟩ := sound.staged begun
      refine List.pairwise_cons.mpr ⟨fun earlier mem => ?_, sound.ordered⟩
      exact number ▸ sound.behind earlier mem

/-- No number is above that of what waits. -/
theorem Sound.number_le (sound : scene.Sound dir name most spent) (waits : scene.begun = some begun) :
    ∀ earlier ∈ scene.all, earlier.number ≤ begun.number := by
  have ordered := sound.ordered_all
  rw [all, waits] at ordered ⊢
  refine List.forall_mem_cons.mpr ⟨Nat.le_refl _, fun earlier mem => ?_⟩
  exact Nat.le_of_lt (List.rel_of_pairwise_cons ordered mem)

/-- Work that leaves the keeper and the staging directory as they are. -/
theorem Sound.kept {more used : Nat} (sound : scene.Sound dir name most spent)
    (orderly : last.Orderly dir name more used after) (keeper : last.keeper = scene.set.keeper)
    (same : SameTree scene.volume (dir.child (stagingName name)) after
      (dir.child (stagingName name))) :
    Sound dir name more used { scene with set := last, volume := after } where
  orderly := orderly
  waits := keeper ▸ sound.waits
  written begun there := (sound.written begun there).trans same
  above := sound.above
  behind begun mem := keeper ▸ sound.behind begun mem
  ordered := sound.ordered

theorem Sound.take_put (sound : scene.Sound dir name most spent) (few : spent + 2 < numberLimit)
    (fp : Fingerprint) (faults : Nat → Option Errno) :
    (scene.take dir (.put fp faults)).Sound dir name most (spent + 2) := by
  have ends := put_orderly (sound.orderly.reschedule faults) few fp
  rw [Keeping.Ends] at ends
  obtain ⟨changes, orderly, keeper⟩ := ends
  apply sound.kept orderly keeper
  apply SameTree.of_changes (sound.orderly.tree.reschedule faults) changes
  exact fun path within => (BoundedSet.apart_overflow dir name).owned path (owned_staging within)

theorem Sound.take_appear (sound : scene.Sound dir name most spent) {entry : String} {number : Nat}
    (named : generationOf? name entry = some number) (low : number ≤ most) :
    (scene.take dir (.appear entry)).Sound dir name most spent := by
  have quiet := sound.orderly.reschedule fun _ => none
  have charge := quiet.charge
  have adds := makeDirectories_adds quiet.tree charge.isDir (charge.noFile entry number named)
  have added : Changes (At (dir.child entry)) NoFile (scene.volume.reschedule fun _ => none)
        (scene.take dir (.appear entry)).volume ∧
      ∀ id, (scene.take dir (.appear entry)).volume.binding? (dir.child entry) ≠ some (.file id) := by
    rcases adds.cases with ⟨_, after, result, there⟩ | ⟨_, after, result, there⟩ <;>
      rw [show (scene.take dir (.appear entry)).volume = after from congrArg Prod.snd result] <;>
      exact there
  obtain ⟨changes, noFile⟩ := added
  have owned (path : Path) (same : At (dir.child entry) path) : Owned dir name path := by
    obtain ⟨suffix, rfl⟩ := stem_of_generationOf? named
    exact ⟨suffix, same ▸ Path.within_self _⟩
  refine sound.kept ⟨changes.sound quiet.tree, charge.beside changes named low noFile, ?_⟩ rfl ?_
  · exact (temper dir name).steady quiet.tree (changes.mono owned fun _ _ none => none) quiet.calm
  · apply SameTree.of_changes quiet.tree changes
    rintro path within rfl
    exact (spares_staging dir name).2 entry number named _ (Path.within_self _) within

theorem Sound.beginning_ends (sound : scene.Sound dir name most spent) (idle : scene.begun = none)
    (room : most + 1 < generationLimit) (few : spent + BoundedSet.segmentLimit < numberLimit)
    {result : Except Error Unit} (ended : scene.beginning faults = ((result, last), after)) :
    Changes (BoundedSet.Touches dir name) NoFile (scene.volume.reschedule faults) after ∧
      (holder dir name).Turned (temper dir name) most (spent + BoundedSet.segmentLimit) scene.set
        (scene.volume.reschedule faults) result last after := by
  have ends := beginCheckpoint_turned (sound.orderly.reschedule faults)
    (sound.staged_eq_none_iff.mpr idle) room few
  rw [beginning] at ended
  rwa [Keeping.Ends, ended] at ends

/-- While a checkpoint waits, beginning another one is refused and nothing changes. -/
theorem Sound.beginning_busy (sound : scene.Sound dir name most spent)
    (waits : scene.begun = some begun) (faults : Nat → Option Errno) :
    scene.beginning faults =
      ((.error (.protocol .alreadyStaged), scene.set), scene.volume.reschedule faults) := by
  apply beginCheckpoint_busy
  rw [ne_eq, sound.staged_eq_none_iff, waits]
  exact Option.some_ne_none begun

theorem take_begin_ok (ended : scene.beginning faults = ((.ok (), last), after)) :
    scene.take dir (.begin faults) =
      { scene with
        set := last
        volume := after
        begun := some
          { number := last.keeper.nextGeneration, found := scene.volume, written := after } } := by
  rw [take, ended]

theorem take_begin_error {error : Error}
    (ended : scene.beginning faults = ((.error error, last), after)) :
    scene.take dir (.begin faults) = { scene with set := last, volume := after } := by
  rw [take, ended]

theorem published_take_begin (dir : Path) (scene : Scene) (faults : Nat → Option Errno) :
    (scene.take dir (.begin faults)).published = scene.published := by
  rcases ended : scene.beginning faults with ⟨⟨error | _, last⟩, after⟩
  · rw [take_begin_error ended]
  · rw [take_begin_ok ended]

theorem Sound.take_begin (sound : scene.Sound dir name most spent)
    (room : most + 1 < generationLimit) (few : spent + BoundedSet.segmentLimit < numberLimit)
    (faults : Nat → Option Errno) :
    (scene.take dir (.begin faults)).Sound dir name most (spent + BoundedSet.segmentLimit) := by
  cases begun : scene.begun with
  | some waiting =>
      rw [take_begin_error (sound.beginning_busy begun faults)]
      refine sound.kept ?_ rfl fun _ => rfl
      exact (sound.orderly.reschedule faults).mono (Nat.le_refl most) (Nat.le_add_right spent _)
  | none =>
      rcases ended : scene.beginning faults with ⟨⟨error | _, last⟩, after⟩
      · obtain ⟨-, orderly, low, idle, -⟩ := sound.beginning_ends begun room few ended
        rw [take_begin_error ended]
        exact
          { orderly
            waits := by
              rw [begun]
              exact congrArg _ idle
            written := fun waiting there => by
              rw [show scene.begun = some waiting from there] at begun
              contradiction
            above := sound.above
            behind := fun earlier mem => Nat.lt_of_lt_of_le (sound.behind earlier mem) low
            ordered := sound.ordered }
      · obtain ⟨-, orderly, low, manifest, staged, above⟩ := sound.beginning_ends begun room few ended
        have number := (orderly.charge.waits manifest staged).1
        rw [take_begin_ok ended]
        exact
          { orderly
            waits := by
              rw [show last.keeper.staged = some manifest from staged]
              exact congrArg some number
            written := by
              rintro _ ⟨⟩
              exact SameTree.refl after _
            above := by
              refine List.forall_mem_cons.mpr ⟨fun item stands => ?_, fun earlier mem => ?_⟩
              · exact Nat.lt_of_lt_of_eq (above item stands) number
              · exact sound.above earlier (List.mem_append_right _ mem)
            behind := fun earlier mem => Nat.lt_of_lt_of_le (sound.behind earlier mem) low
            ordered := sound.ordered }

theorem Sound.committing_idle (sound : scene.Sound dir name most spent) (idle : scene.begun = none)
    (refusal : Option Errno) :
    scene.committing refusal = ((.error (.protocol .nothingStaged), scene.set),
      scene.volume.reschedule fun tick => if tick = scene.volume.clock then refusal else none) := by
  rw [committing, commitCheckpoint_apply dir name]
  exact Holder.commit_idle (sound.staged_eq_none_iff.mpr idle) _

/-- A commit that is refused at the renaming leaves everything as it was. -/
theorem Sound.committing_refused (sound : scene.Sound dir name most spent)
    (waits : scene.begun = some begun) (errno : Errno) :
    ∃ error, scene.committing (some errno) = ((.error error, scene.set),
      (scene.volume.reschedule fun tick =>
        if tick = scene.volume.clock then some errno else none).ticked) := by
  obtain ⟨manifest, staged, -⟩ := sound.staged waits
  rw [committing, commitCheckpoint_apply dir name]
  exact Holder.commit_refused staged (if_pos rfl)

/-- Nothing is refused of a commit that is not refused at its first step. -/
theorem Sound.committing_settles (sound : scene.Sound dir name most spent)
    (waits : scene.begun = some begun) (room : most + 2 < generationLimit) {result : Except Error Unit}
    (ended : scene.committing none = ((result, last), after)) :
    ∃ manifest quiet, scene.set.keeper.staged = some manifest ∧ manifest.generation = begun.number ∧
      (holder dir name).Settles (temper dir name) most spent manifest scene.set
        (scene.volume.reschedule quiet) result last after := by
  obtain ⟨manifest, staged, number, -⟩ := sound.staged waits
  have quiet : (scene.volume.reschedule fun tick =>
      if tick = scene.volume.clock then none else none).Quiet := fun tick _ => ite_self none
  have settles := Holder.commit_settles (sound.orderly.reschedule _) quiet staged room
  rw [committing, commitCheckpoint_apply dir name] at ended
  rw [Keeping.Ends, ended] at settles
  exact ⟨manifest, _, staged, number, settles⟩

theorem take_commit_ok {refusal : Option Errno}
    (ended : scene.committing refusal = ((.ok (), last), after)) :
    scene.take dir (.commit refusal) =
      { set := last, volume := after, begun := none, published := scene.all } := by
  rw [take, ended]

theorem take_commit_error {refusal : Option Errno} {error : Error}
    (ended : scene.committing refusal = ((.error error, last), after)) :
    scene.take dir (.commit refusal) = { scene with set := last, volume := after } := by
  rw [take, ended]

theorem Sound.length_all (waits : scene.begun = some begun) :
    scene.all.length = scene.published.length + 1 := by
  rw [all, waits]
  rfl

theorem Sound.take_commit (sound : scene.Sound dir name (most + scene.published.length) spent)
    (room : most + scene.published.length + 2 < generationLimit) (refusal : Option Errno) :
    (scene.take dir (.commit refusal)).Sound dir name
      (most + (scene.take dir (.commit refusal)).published.length) spent := by
  have ticked (faults : Nat → Option Errno) :
      scene.set.Orderly dir name (most + scene.published.length) spent
        (scene.volume.reschedule faults).ticked :=
    (sound.orderly.reschedule faults).of_look (changes_ticked _)
  cases begun : scene.begun with
  | none =>
      rw [take_commit_error (sound.committing_idle begun refusal)]
      exact sound.kept (sound.orderly.reschedule _) rfl fun _ => rfl
  | some waiting =>
      cases refusal with
      | some errno =>
          obtain ⟨error, ended⟩ := sound.committing_refused begun errno
          rw [take_commit_error ended]
          exact sound.kept (ticked _) rfl fun _ => rfl
      | none =>
          rcases ended : scene.committing none with ⟨⟨error | _, last⟩, after⟩
          · obtain ⟨manifest, quiet, -, -, -, rfl, rfl⟩ := sound.committing_settles begun room ended
            rw [take_commit_error ended]
            exact sound.kept (ticked _) rfl fun _ => rfl
          · obtain ⟨manifest, quiet, staged, number, orderly, publishes⟩ :=
              sound.committing_settles begun room ended
            have keeper : last.keeper = _ := publishes.final
            rw [take_commit_ok ended]
            exact
              { orderly := by
                  rw [length_all begun]
                  exact orderly
                waits := by
                  rw [keeper]
                  rfl
                written := fun _ none => nomatch none
                above := sound.above
                behind := by
                  rw [keeper]
                  intro earlier mem
                  exact Nat.lt_succ_of_le (number ▸ sound.number_le begun earlier mem)
                ordered := sound.ordered_all }

theorem Sound.mono {used : Nat} (sound : scene.Sound dir name most spent) (fewer : spent ≤ used) :
    scene.Sound dir name most used :=
  { sound with orderly := sound.orderly.mono (Nat.le_refl most) fewer }

theorem published_take_le (dir : Path) (scene : Scene) (turn : Turn) :
    scene.published.length ≤ (scene.take dir turn).published.length := by
  cases turn with
  | put fp faults => exact Nat.le_refl _
  | begin faults => exact (published_take_begin dir scene faults).symm ▸ Nat.le_refl _
  | commit refusal =>
      rcases ended : scene.committing refusal with ⟨⟨error | _, last⟩, after⟩ <;>
        simp [take, ended, all]
  | appear entry => exact Nat.le_refl _

theorem published_run_le (dir : Path) (turns : List Turn) (scene : Scene) :
    scene.published.length ≤ (scene.run dir turns).published.length := by
  induction turns generalizing scene with
  | nil => exact Nat.le_refl _
  | cons turn turns ih => exact Nat.le_trans (published_take_le dir scene turn) (ih _)

/-- A turn leaves a sound scene. -/
theorem Sound.take (sound : scene.Sound dir name (most + scene.published.length) spent) (turn : Turn)
    (appears : ∀ entry, turn = .appear entry → ∃ number ≤ most, generationOf? name entry = some number)
    (room : most + scene.published.length + 2 < generationLimit)
    (few : spent + BoundedSet.segmentLimit < numberLimit) :
    (scene.take dir turn).Sound dir name (most + (scene.take dir turn).published.length)
      (spent + BoundedSet.segmentLimit) := by
  have most_ : spent + 2 ≤ spent + BoundedSet.segmentLimit := Nat.add_le_add_left (by decide) spent
  cases turn with
  | put fp faults => exact (sound.take_put (Nat.lt_of_le_of_lt most_ few) fp faults).mono most_
  | begin faults =>
      rw [published_take_begin]
      exact sound.take_begin (Nat.lt_of_succ_lt room) few faults
  | commit refusal => exact (sound.take_commit room refusal).mono (Nat.le_add_right spent _)
  | appear entry =>
      obtain ⟨number, low, named⟩ := appears entry rfl
      exact (sound.take_appear named (Nat.le_trans low (Nat.le_add_right most _))).mono
        (Nat.le_add_right spent _)

/-- Turns leave a sound scene, as long as the numbers of generations and pages last. -/
theorem Sound.run (sound : scene.Sound dir name (most + scene.published.length) spent)
    (turns : List Turn)
    (appears : ∀ entry, .appear entry ∈ turns → ∃ number ≤ most, generationOf? name entry = some number)
    (room : most + (scene.run dir turns).published.length + 2 < generationLimit)
    (few : spent + turns.length * BoundedSet.segmentLimit < numberLimit) :
    (scene.run dir turns).Sound dir name (most + (scene.run dir turns).published.length)
      (spent + turns.length * BoundedSet.segmentLimit) := by
  induction turns generalizing scene spent with
  | nil => exact sound.mono (Nat.le_add_right spent _)
  | cons turn turns ih =>
      have pages : spent + (turn :: turns).length * BoundedSet.segmentLimit =
          spent + BoundedSet.segmentLimit + turns.length * BoundedSet.segmentLimit := by
        rw [List.length_cons, Nat.succ_mul, Nat.add_assoc, Nat.add_comm (turns.length * _)]
      rw [pages] at few ⊢
      have published := published_run_le dir (turn :: turns) scene
      have taken := sound.take turn (fun entry same => appears entry (same ▸ List.mem_cons_self))
        (by omega) (by omega)
      exact ih taken (fun entry mem => appears entry (List.mem_cons_of_mem turn mem)) room few

/-! ## Scenes in step -/

/-- A checkpoint that was begun is published: what was written then is all there under its number,
and nothing is left under smaller numbers. -/
structure Published (dir : Path) (name : String) (begun : Begun) (volume : Volume) : Prop where
  stands : Stands volume dir name (begun.number, dir.child (generationName name begun.number))
  moved : SameTree begun.written (dir.child (stagingName name)) volume
    (dir.child (generationName name begun.number))
  cleared : ∀ item, Stands volume dir name item → begun.number ≤ item.1

/-- What is asked of a set is in step with what became of its checkpoints. -/
structure InTurn (dir : Path) (name : String) (scene : Scene) : Prop where
  /-- Beginning comes at the wrong time exactly while a checkpoint waits. -/
  begins : ∀ faults, Timely (scene.beginning faults).1.1 ↔ scene.begun = none
  /-- Committing comes at the wrong time exactly while none waits. -/
  commits : ∀ refusal, Timely (scene.committing refusal).1.1 ↔ scene.begun ≠ none
  /-- The keeper has noted what waits. -/
  waits : scene.set.keeper.staged.map (·.generation) = scene.begun.map (·.number)
  /-- Beginning leaves all generations, whatever is refused of it. -/
  spares : ∀ faults item, Stands scene.volume dir name item →
    SameTree scene.volume item.2 (scene.beginning faults).2 item.2
  /-- Nothing waits after beginning has failed. -/
  fails : ∀ faults error, scene.begun = none → (scene.beginning faults).1.1 = .error error →
    (scene.beginning faults).1.2.keeper.staged = none
  /-- Beginning succeeds if no step of it is refused. -/
  succeeds : scene.begun = none → FitsDirectory (stagingName name) →
    (scene.beginning fun _ => none).1.1 = .ok ()
  /-- So it does after it has failed. -/
  again : ∀ faults error, scene.begun = none → (scene.beginning faults).1.1 = .error error →
    FitsDirectory (stagingName name) →
      ((scene.take dir (.begin faults)).beginning fun _ => none).1.1 = .ok ()
  /-- A commit that is refused at the renaming leaves the set and all files. -/
  stays : ∀ errno, scene.begun ≠ none → ∃ error after,
    scene.committing (some errno) = ((.error error, scene.set), after) ∧
      SameTree scene.volume [] after []
  /-- A commit succeeds if the renaming is not refused. -/
  goes : ∀ begun, scene.begun = some begun → FitsDirectory (generationName name begun.number) →
    (scene.committing none).1.1 = .ok ()
  publishes : ∀ begun refusal, scene.begun = some begun → (scene.committing refusal).1.1 = .ok () →
    Published dir name begun (scene.committing refusal).2
  /-- Every number is above those of all generations there were when it was given. -/
  above : ∀ begun ∈ scene.all, ∀ item, Stands begun.found dir name item → item.1 < begun.number
  ordered : scene.all.Pairwise fun later earlier => earlier.number < later.number

theorem not_timely {α : Type} (violation : Violation) :
    ¬Timely (.error (.protocol violation) : Except Error α) :=
  fun timely => timely violation rfl

theorem Sound.beginning_spares (sound : scene.Sound dir name most spent)
    (room : most + 1 < generationLimit) (few : spent + BoundedSet.segmentLimit < numberLimit)
    (faults : Nat → Option Errno) {item : Nat × Path} (stands : Stands scene.volume dir name item) :
    SameTree scene.volume item.2 (scene.beginning faults).2 item.2 := by
  cases begun : scene.begun with
  | some waiting =>
      rw [sound.beginning_busy begun faults]
      exact fun _ => rfl
  | none =>
      rcases ended : scene.beginning faults with ⟨⟨result, last⟩, after⟩
      obtain ⟨changes, -⟩ := sound.beginning_ends begun room few ended
      obtain ⟨entry, named, path, -⟩ := stands
      apply SameTree.of_changes (sound.orderly.tree.reschedule faults) changes
      rw [path]
      exact (BoundedSet.spares_touches dir name).2 entry item.1 named

theorem Sound.beginning_succeeds (sound : scene.Sound dir name most spent)
    (idle : scene.begun = none) (room : most + 1 < generationLimit)
    (few : spent + BoundedSet.segmentLimit < numberLimit) (fits : FitsDirectory (stagingName name)) :
    (scene.beginning fun _ => none).1.1 = .ok () := by
  rcases ended : scene.beginning fun _ => none with ⟨⟨error | _, last⟩, after⟩
  · obtain ⟨-, turned⟩ := sound.beginning_ends idle room few ended
    exact absurd fits (turned.2.2.2 fun _ _ => rfl)
  · rfl

theorem Sound.publishes (sound : scene.Sound dir name most spent) (waits : scene.begun = some begun)
    (room : most + 2 < generationLimit) (refusal : Option Errno)
    (done : (scene.committing refusal).1.1 = .ok ()) :
    Published dir name begun (scene.committing refusal).2 := by
  cases refusal with
  | some errno =>
      obtain ⟨error, ended⟩ := sound.committing_refused waits errno
      rw [ended] at done
      contradiction
  | none =>
      rcases ended : scene.committing none with ⟨⟨error | _, last⟩, after⟩
      · rw [ended] at done
        contradiction
      · obtain ⟨manifest, quiet, -, number, -, published⟩ := sound.committing_settles waits room ended
        obtain ⟨_, -, -, next⟩ := sound.staged waits
        have below : begun.number < generationLimit :=
          next ▸ Nat.lt_of_le_of_lt sound.orderly.charge.next (Nat.lt_of_succ_lt room)
        have moved := published.moved
        have there := published.there
        have cleared := published.cleared
        rw [number] at moved there cleared
        exact
          { stands := ⟨_, generationOf?_generationName below, rfl, there⟩
            moved := (sound.written begun waits).trans moved
            cleared }

/-- A sound scene is in step. -/
theorem Sound.inTurn (sound : scene.Sound dir name most spent) (room : most + 2 < generationLimit)
    (few : spent + 2 * BoundedSet.segmentLimit < numberLimit) : scene.InTurn dir name where
  begins faults := by
    cases begun : scene.begun with
    | none =>
        have idle := sound.staged_eq_none_iff.mpr begun
        exact iff_of_true (beginCheckpoint_timely idle _) rfl
    | some waiting =>
        rw [sound.beginning_busy begun faults]
        exact iff_of_false (not_timely _) (Option.some_ne_none waiting)
  commits refusal := by
    cases begun : scene.begun with
    | none =>
        rw [sound.committing_idle begun refusal]
        exact iff_of_false (not_timely _) fun some => some rfl
    | some waiting =>
        have busy : scene.set.keeper.staged ≠ none := by
          rw [ne_eq, sound.staged_eq_none_iff, begun]
          exact Option.some_ne_none waiting
        rw [committing, commitCheckpoint_apply dir name]
        exact iff_of_true (Holder.commit_timely busy _) (Option.some_ne_none waiting)
  waits := sound.waits
  spares faults item stands :=
    sound.beginning_spares (Nat.lt_of_succ_lt room) (by omega) faults stands
  fails faults error idle failed := by
    rcases ended : scene.beginning faults with ⟨⟨result, last⟩, after⟩
    obtain ⟨-, turned⟩ := sound.beginning_ends idle (Nat.lt_of_succ_lt room) (by omega) ended
    rw [ended] at failed
    obtain rfl : result = .error error := failed
    exact turned.2.2.1
  succeeds idle fits := sound.beginning_succeeds idle (Nat.lt_of_succ_lt room) (by omega) fits
  again faults error idle failed fits := by
    have taken := sound.take_begin (Nat.lt_of_succ_lt room) (by omega) faults
    apply taken.beginning_succeeds _ (Nat.lt_of_succ_lt room) (by omega) fits
    rcases ended : scene.beginning faults with ⟨⟨result, last⟩, after⟩
    rw [ended] at failed
    obtain rfl : result = .error error := failed
    rw [take_begin_error ended]
    exact idle
  stays errno busy := by
    obtain ⟨begun, waits⟩ := Option.ne_none_iff_exists'.mp busy
    obtain ⟨error, ended⟩ := sound.committing_refused waits errno
    exact ⟨error, _, ended, fun _ => rfl⟩
  goes begun waits fits := by
    rcases ended : scene.committing none with ⟨⟨error | _, last⟩, after⟩
    · obtain ⟨manifest, quiet, -, number, unfit, -⟩ := sound.committing_settles waits room ended
      exact absurd fits (number ▸ unfit)
    · rfl
  publishes begun refusal waits := sound.publishes waits room refusal
  above := sound.above
  ordered := sound.ordered_all

theorem opened_sound (orderly : set.Orderly dir name most spent before)
    (idle : set.keeper.staged = none) : (opened set before).Sound dir name most spent where
  orderly := orderly
  waits := congrArg (Option.map _) idle
  written _ none := nomatch none
  above _ none := absurd none List.not_mem_nil
  behind _ none := absurd none List.not_mem_nil
  ordered := List.Pairwise.nil

/-- Whatever a set was opened on, and in whatever order it is put to, begins checkpoints and commits
them, with any steps refused of its puts and beginnings and the renaming refused of its commits: each
is answered in step with what became of the others.  Neither the numbers of generations nor those of
pages may run out, and no file may be under the name of a generation. -/
theorem checkpoints_in_turn {settings : Settings} {seed : UInt64} (admits : Admits dir name most before)
    (result : openAt settings seed dir name before = (.ok set, after)) (turns : List Turn)
    (appears : ∀ entry, .appear entry ∈ turns → ∃ number ≤ most, generationOf? name entry = some number)
    (room : most + ((opened set after).run dir turns).published.length + 2 < generationLimit)
    (few : turns.length < UInt64.size) : ((opened set after).run dir turns).InTurn dir name := by
  have opens := @openAt_orderly before dir name most settings seed admits (by omega)
  rw [Meets, result] at opens
  obtain ⟨orderly, idle⟩ := opens
  have pages : BoundedSet.openingCost + (UInt64.size + 1) * BoundedSet.segmentLimit < numberLimit := by
    decide
  have given : turns.length * BoundedSet.segmentLimit + 2 * BoundedSet.segmentLimit ≤
      (UInt64.size + 1) * BoundedSet.segmentLimit := by
    rw [← Nat.add_mul]
    exact Nat.mul_le_mul_right _ (Nat.succ_le_succ few)
  have sound := (opened_sound orderly idle).run turns appears room (by omega)
  exact sound.inTurn room (by omega)

/-- Turns of which one beginning is refused, and the only commit. -/
def retriedTurns : List Turn :=
  [.put 3 fun _ => none, .begin fun tick => if tick = 14 then some .noSpace else none,
    .appear "fps.chkpt.00000003", .begin fun _ => none, .put 5 fun _ => none,
    .commit (some .inputOutput)]

/-- The beginning that was repeated gave the number above that of the directory that had appeared, and
what it wrote can be published still. -/
theorem checkpoints_in_turn_retried :
    ∃ set after, openAt tightSettings 7 [] "fps" {} = (.ok set, after) ∧ Admits [] "fps" 3 {} ∧
      (∀ entry, .appear entry ∈ retriedTurns →
        ∃ number ≤ 3, generationOf? "fps" entry = some number) ∧
      3 + ((opened set after).run [] retriedTurns).published.length + 2 < generationLimit ∧
      retriedTurns.length < UInt64.size ∧
      let scene := (opened set after).run [] retriedTurns
      ∃ begun, scene.begun = some begun ∧ begun.number = 4 ∧
        (scene.committing none).1.1 = .ok () ∧ Published [] "fps" begun (scene.committing none).2 := by
  have given : (match openAt tightSettings 7 [] "fps" {} with
      | (.ok set, after) =>
          let scene := (opened set after).run [] retriedTurns
          (scene.begun.map (·.number), scene.published.length)
      | (.error _, _) => (none, 0)) = (some 4, 0) := by
    decide +kernel
  rcases result : openAt tightSettings 7 [] "fps" {} with ⟨error | set, after⟩ <;> rw [result] at given
  · exact nomatch (Prod.mk.inj given).1
  have admits := admits_empty "fps" 3
  have appears (entry : String) (mem : .appear entry ∈ retriedTurns) :
      ∃ number ≤ 3, generationOf? "fps" entry = some number := by
    obtain rfl : entry = "fps.chkpt.00000003" := by simpa [retriedTurns] using mem
    exact ⟨3, Nat.le_refl 3, by decide⟩
  obtain ⟨waiting, unpublished⟩ := Prod.mk.inj given
  have room : 3 + ((opened set after).run [] retriedTurns).published.length + 2 < generationLimit := by
    rw [unpublished]
    decide
  have few : retriedTurns.length < UInt64.size := by decide
  have inTurn := checkpoints_in_turn admits result retriedTurns appears room few
  obtain ⟨begun, waits, number⟩ := Option.map_eq_some_iff.mp waiting
  have fits : FitsDirectory (generationName "fps" begun.number) := by
    rw [number]
    constructor <;> decide +kernel
  have commits := inTurn.goes begun waits fits
  exact ⟨set, after, rfl, admits, appears, room, few, begun, waits, number, commits,
    inTurn.publishes begun none waits commits⟩

end Scene

end OpenSet

end FingerprintSet
