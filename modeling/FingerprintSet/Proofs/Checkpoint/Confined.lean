import FingerprintSet.Checkpoint.Keeper
import FingerprintSet.Checkpoint.Restore
import FingerprintSet.Proofs.Checkpoint.Belonging
import FingerprintSet.Proofs.SortedFile.Confined

/-!
# Checkpoints keep to their directories

The keeper of a set's checkpoints looks through the whole directory for generations, but only what
belongs to its name counts, and it touches nothing else.  Reading a checkpoint and writing one keep
to the directories of that name as well.
-/

namespace FingerprintSet

open Storage Volume Storage.Region Checkpoint

variable {region : Region} {dir path : Path} {name : String} {σ : Type}

/-- A region for the checkpoints and the pages under a name in a directory. -/
structure Storage.Region.Serves (region : Region) (dir : Path) (name : String) : Prop where
  directory : region.reads dir
  entries : ∀ entry, Belongs name entry → region.writes (dir.child entry)

namespace Checkpoint

/-! ## Reading checkpoints -/

theorem verifyEntries_confined (path : Path) (bound : Nat) (last : Option Fingerprint)
    {reader : SortedFile.Reader} (admitted : reader.Admitted region) :
    region.ConfinesTask (verifyEntries path bound last reader) fun _ => True := by
  induction bound generalizing last reader with
  | zero => exact .pure trivial
  | succ bound ih =>
      refine ConfinesTask.liftThen (SortedFile.Reader.next_confined admitted) fun asked _ still => ?_
      obtain ⟨reader, fp | error | _⟩ := asked
      · dsimp only
        split
        · exact .throw _
        · exact ih (some fp) still
      · exact .throw error
      · exact .pure trivial

theorem reads_child (writes : region.writes path) (entry : String) :
    region.reads (path.child entry) :=
  region.writes_reads _ (region.writes_within _ _ (Path.within_child path entry) writes)

theorem verifySegment_confined (writes : region.writes path) (entry : SegmentEntry) :
    region.ConfinesTask (verifySegment path entry) fun _ => True := by
  rw [verifySegment]
  split
  · exact .throw _
  · have opened := SortedFile.Reader.openAt_confined (reads_child writes entry.file) .checkpoint
    refine opened.bind fun reader admitted => ?_
    split
    · exact verifyEntries_confined _ _ _ admitted
    · exact .throw _

theorem readManifest_confined (writes : region.writes path) :
    region.ConfinesTask (readManifest path) fun _ => True := by
  refine (readWhole_confined (reads_child writes manifestFile)).run.bind fun bytes _ => ?_
  split
  · exact .pure trivial
  · exact .throw _

theorem load_confined (writes : region.writes path) (generation : Nat) :
    region.ConfinesTask (load path generation) fun checkpoint => checkpoint.directory = path := by
  refine (readManifest_confined writes).bind fun manifest _ => ?_
  dsimp only
  split
  · exact .throw _
  · split
    · exact .throw _
    · refine (ConfinesTask.forM fun entry _ => verifySegment_confined writes entry).bind fun _ _ => ?_
      split
      · exact .pure rfl
      · exact .throw _

theorem openSegments_confined (writes : region.writes path) (entries : List SegmentEntry) :
    region.ConfinesTask (openSegments path entries)
      fun readers => ∀ reader ∈ readers, reader.Admitted region := by
  induction entries with
  | nil => exact .pure fun _ none => nomatch none
  | cons entry entries ih =>
      have opened := SortedFile.Reader.openAt_confined (reads_child writes entry.file) .checkpoint
      refine opened.bind fun reader admitted => ih.bind fun readers others => ?_
      exact .pure (List.forall_mem_cons.mpr ⟨admitted, others⟩)

/-- A stream that may be asked. -/
def Stream.Admitted (region : Region) (stream : Stream) : Prop :=
  ∀ reader ∈ stream.readers, reader.Admitted region

theorem nextOf_confined {readers : List SortedFile.Reader}
    (admitted : ∀ reader ∈ readers, reader.Admitted region) :
    region.Confines (nextOf readers) fun asked _ => ∀ reader ∈ asked.1, reader.Admitted region := by
  induction readers with
  | nil => exact .pure fun _ _ none => nomatch none
  | cons reader readers ih =>
      rw [List.forall_mem_cons] at admitted
      refine (SortedFile.Reader.next_confined admitted.1).bind fun asked _ still => ?_
      obtain ⟨next, fp | error | _⟩ := asked
      · exact .pure fun _ => List.forall_mem_cons.mpr ⟨still, admitted.2⟩
      · exact .pure fun _ => List.forall_mem_cons.mpr ⟨still, admitted.2⟩
      · exact ih admitted.2

theorem Stream.next_confined {stream : Stream} (admitted : stream.Admitted region) :
    region.Confines stream.next fun asked _ => asked.1.Admitted region :=
  (nextOf_confined admitted).bind fun _ _ still => .pure fun _ => still

/-- Filling a set from a checkpoint keeps to the region if putting does. -/
theorem restore_confined {kept : Custody σ} {put : Fingerprint → Keeping σ Bool}
    (puts : ∀ fp, region.ConfinesKeeping kept (put fp) fun _ => True) (size : σ → Nat)
    {checkpoint : Checkpoint} (writes : region.writes checkpoint.directory) :
    region.ConfinesKeeping kept (restore put size checkpoint) fun _ => True := by
  have all (bound : Nat) : ∀ stream : Stream, stream.Admitted region →
      region.ConfinesKeeping kept (putAll put bound stream) fun _ => True := by
    induction bound with
    | zero => exact fun _ _ => .pure trivial
    | succ bound ih =>
        intro stream admitted
        have asks : region.ConfinesTask (liftM stream.next : Task (Stream × Pull))
            fun asked => asked.1.Admitted region := .lift (Stream.next_confined admitted)
        refine (ConfinesKeeping.lift asks).bind fun asked still => ?_
        obtain ⟨stream, fp | error | _⟩ := asked
        · exact (puts fp).bind fun _ _ => ih stream still
        · exact .throw error
        · exact .pure trivial
  have streams : region.ConfinesTask checkpoint.stream (Stream.Admitted region) :=
    (openSegments_confined writes _).bind fun _ admitted => .pure admitted
  refine (ConfinesKeeping.lift streams).bind fun stream admitted => ?_
  refine (all _ stream admitted).bind fun _ _ => .getThen fun state _ _ => ?_
  dsimp only
  split
  · exact .pure trivial
  · exact .throw _

end Checkpoint

/-! ## Writing checkpoints -/

/-- A checkpoint that is written into the region. -/
def Staging.In (region : Region) (staging : Staging) : Prop :=
  region.writes staging.directory

theorem Staging.segmentWriter_confined {staging : Staging} (inside : staging.In region)
    (index : Nat) :
    region.ConfinesTask (staging.segmentWriter index)
      (SortedFile.Writer.Own region (staging.directory.child (segmentFile index))) :=
  SortedFile.Writer.create_confined
    (region.writes_within _ _ (Path.within_child _ _) inside) _ _ _

theorem syncDirectory_confined (reads : region.reads path) :
    region.ConfinesTask (syncDirectory path) fun _ => True :=
  ((openFile_confined reads).bind fun _ _ => sync_confined).run

namespace CheckpointKeeper

/-! ## Generations -/

/-- The generation, and its path, that a name in a directory stands for if it names a directory. -/
def standing? (volume : Volume) (dir : Path) (name entry : String) : Option (Nat × Path) := do
  let generation ← generationOf? name entry
  if volume.isDirectory (dir.child entry) then some (generation, dir.child entry) else none

/-- The generations on a volume, in the order of their names. -/
def standing (volume : Volume) (dir : Path) (name : String) : List (Nat × Path) :=
  (volume.children dir).filterMap (standing? volume dir name)

theorem belongs_of_standing? {volume : Volume} {entry : String} {found : Nat × Path}
    (stands : standing? volume dir name entry = some found) :
    Belongs name entry ∧ found.2 = dir.child entry := by
  obtain ⟨generation, spells, stands⟩ := Option.bind_eq_some_iff.mp stands
  refine ⟨.of_generationOf? spells, ?_⟩
  split at stands
  · exact Option.some.inj stands ▸ rfl
  · contradiction

/-- Looking for generations is one step, which lists them. -/
theorem generationsIn_eq (dir : Path) (name : String) :
    generationsIn dir name =
      (Activity.listing dir).run (attempt fun volume => volume.find dir >>= fun
        | none => .error (.refused .notFound)
        | some (.file _) => .error (.refused .notDirectory)
        | some .directory => .ok (standing volume dir name, volume)) >>= fun found =>
          pure (found.mergeSort fun a b => a.1 ≤ b.1) := by
  funext volume
  have looks : generationsIn dir name volume =
      ExceptT.bindCont (m := StateM Volume)
        (fun entries => getThe Volume >>= fun volume =>
          pure ((entries.filterMap (standing? volume dir name)).mergeSort fun a b => a.1 ≤ b.1))
        ((listDirectory dir volume).1.mapError (Error.storage (.listing dir)))
        (listDirectory dir volume).2 := rfl
  have steps (step : Volume → Except Failure (List (Nat × Path) × Volume)) :
      ((Activity.listing dir).run (attempt step) >>= fun found =>
          pure (found.mergeSort fun a b => a.1 ≤ b.1) : Task (List (Nat × Path))) volume =
        ExceptT.bindCont (m := StateM Volume)
          (fun found => pure (found.mergeSort fun a b => a.1 ≤ b.1))
          ((attempt step volume).1.mapError (Error.storage (.listing dir)))
          (attempt step volume).2 := rfl
  rw [looks, steps, listDirectory, attempt_apply, attempt_apply]
  cases volume.faults volume.clock with
  | some errno => rfl
  | none =>
      dsimp only
      cases volume.ticked.find dir with
      | error failure => rfl
      | ok found => rcases found with _ | _ | id <;> rfl

/-- What stands for a generation, if it is a directory. -/
def isGeneration (dir : Path) (name : String) (item : Path × Entry) : Bool :=
  item.1.isChildOf dir && (item.1.getLast?.bind (generationOf? name)).isSome

theorem isGeneration_spec {item : Path × Entry} (stands : isGeneration dir name item = true) :
    ∃ entry, item.1 = dir.child entry ∧ item.1.getLast? = some entry ∧ Belongs name entry := by
  obtain ⟨child, spells⟩ := Bool.and_eq_true_iff.mp stands
  obtain ⟨entry, same⟩ := Path.isChildOf_iff.mp child
  have last : item.1.getLast? = some entry := by
    rw [same, Path.child, List.getLast?_append]
    rfl
  rw [last] at spells
  obtain ⟨number, stands⟩ := Option.isSome_iff_exists.mp spells
  exact ⟨entry, same, last, .of_generationOf? stands⟩

/-- What does not stand for a generation is passed over. -/
theorem standing_eq_filter (volume : Volume) (dir : Path) (name : String) :
    standing volume dir name =
      (volume.entries.toList.filter (isGeneration dir name)).filterMap fun item =>
        item.1.getLast?.bind (standing? volume dir name) := by
  rw [standing, children, List.filterMap_filterMap, List.filterMap_filter, List.filterMap_filter]
  refine List.filterMap_congr fun item _ => ?_
  rw [isGeneration]
  cases item.1.isChildOf dir with
  | false => rfl
  | true =>
      rw [Bool.true_and, if_pos rfl]
      cases item.1.getLast? with
      | none => rfl
      | some entry =>
          rw [Option.bind_some, Option.bind_some, standing?]
          cases generationOf? name entry <;> rfl

variable (serves : region.Serves dir name)
include serves

/-- What else the directory holds does not matter for the generations of a name. -/
theorem standing_eq {first second : Volume} (alike : region.Alike first second) :
    standing first dir name = standing second dir name := by
  have reads {item : Path × Entry} {entry : String} (same : item.1 = dir.child entry)
      (belongs : Belongs name entry) : region.reads item.1 :=
    same ▸ region.writes_reads _ (serves.entries entry belongs)
  rw [standing_eq_filter, standing_eq_filter, alike.filter_eq]
  · refine List.filterMap_congr fun item mem => ?_
    obtain ⟨entry, same, last, belongs⟩ := isGeneration_spec (List.mem_filter.mp mem).2
    rw [last, Option.bind_some, Option.bind_some, standing?, standing?, ← same,
      alike.isDirectory_eq (reads same belongs)]
  · intro item stands
    obtain ⟨entry, same, -, belongs⟩ := isGeneration_spec stands
    exact reads same belongs

theorem writes_of_standing {volume : Volume} :
    ∀ found ∈ standing volume dir name, region.writes found.2 := by
  intro found mem
  obtain ⟨entry, -, stands⟩ := List.mem_filterMap.mp mem
  obtain ⟨belongs, same⟩ := belongs_of_standing? stands
  exact same ▸ serves.entries entry belongs

theorem generationsIn_confined :
    region.ConfinesTask (generationsIn dir name) fun found => ∀ item ∈ found, region.writes item.2 := by
  rw [generationsIn_eq]
  have lists : region.ConfinesTask (attempt fun volume => volume.find dir >>= fun
        | none => .error (.refused .notFound)
        | some (.file _) => .error (.refused .notDirectory)
        | some .directory => .ok (standing volume dir name, volume))
      fun found : List (Nat × Path) => ∀ item ∈ found, region.writes item.2 := by
    refine confines_find (fun (found : List (Nat × Path)) _ => ∀ item ∈ found, region.writes item.2)
      serves.directory fun first second found alike _ => ?_
    rcases found with _ | _ | id
    · exact rfl
    · exact ⟨standing_eq serves alike, alike, .refl first, writes_of_standing serves⟩
    · exact rfl
  exact lists.run.bind fun found writes => .pure fun item mem =>
    writes item (List.mem_mergeSort.mp mem)

/-! ## Keepers -/

omit serves in
theorem clearDirectory_confined (activity : Path → Activity) (writes : region.writes path) :
    region.ConfinesTask (clearDirectory activity path) fun _ => True := by
  refine .getVolumeThen (fun first second alike => ?_) fun volume => ?_
  · rw [alike.isPresent_eq (region.writes_reads _ writes)]
  · split
    · exact (removeTree_confined writes).run
    · exact .pure trivial

/-- A keeper for the name in the directory. -/
def Serves (dir : Path) (name : String) (keeper : CheckpointKeeper) : Prop :=
  keeper.directory = dir ∧ keeper.name = name

theorem openAt_confined (durable : Bool) :
    region.ConfinesTask (openAt dir name durable) (Serves dir name) := by
  rw [openAt]
  split
  · exact .throw _
  · refine (makeDirectories_confined serves.directory).adapt.bind fun _ _ => ?_
    refine .getVolumeThen (fun first second alike => ?_) fun volume => ?_
    · rw [alike.isDirectory_eq serves.directory]
    · split
      · exact .throw _
      · refine (generationsIn_confined serves).bind fun found _ => ?_
        exact (ConfinesTask.ofExcept fun _ told => told).bind fun _ _ => .pure ⟨rfl, rfl⟩

theorem writes_stagingDirectory {keeper : CheckpointKeeper} (keeps : keeper.Serves dir name) :
    region.writes keeper.stagingDirectory := by
  obtain ⟨rfl, rfl⟩ := keeps
  exact serves.entries _ .staging

theorem generations_confined {keeper : CheckpointKeeper} (keeps : keeper.Serves dir name) :
    region.ConfinesTask keeper.generations fun found => ∀ item ∈ found, region.writes item.2 := by
  obtain ⟨rfl, rfl⟩ := keeps
  exact generationsIn_confined serves

omit serves in
theorem loadFirst_confined {found : List (Nat × Path)} (writes : ∀ item ∈ found, region.writes item.2) :
    region.ConfinesTask (loadFirst found)
      fun loaded => ∀ checkpoint, loaded = some checkpoint → region.writes checkpoint.directory := by
  induction found with
  | nil => exact .pure fun _ none => nomatch none
  | cons item found ih =>
      rw [List.forall_mem_cons] at writes
      refine ((load_confined writes.1 item.1).map fun checkpoint same => ?_).tryCatch
        fun _ => ih writes.2
      rintro _ ⟨⟩
      exact same ▸ writes.1

theorem recover_confined {keeper : CheckpointKeeper} (keeps : keeper.Serves dir name) :
    region.ConfinesTask keeper.recover
      fun loaded => ∀ checkpoint, loaded = some checkpoint → region.writes checkpoint.directory := by
  refine (clearDirectory_confined _ (writes_stagingDirectory serves keeps)).bind fun _ _ => ?_
  refine (generations_confined serves keeps).bind fun found writes => ?_
  have latest : ∀ item ∈ found.reverse, region.writes item.2 :=
    fun item mem => writes item (List.mem_reverse.mp mem)
  refine (loadFirst_confined latest).bind fun loaded inside => ?_
  cases loaded with
  | some checkpoint => exact .pure inside
  | none =>
      dsimp only
      split
      · exact .pure fun _ none => nomatch none
      · exact .throw _

/-! ## Beginning and committing -/

theorem beginStaging_confined (seed : UInt64) (bits : Nat) :
    region.ConfinesKeeping (.always (Serves dir name)) (beginStaging seed bits)
      (Staging.In region) := by
  refine .getThen fun keeper _ keeps => ?_
  split
  · exact .throw _
  · have writes := writes_stagingDirectory serves keeps
    refine (ConfinesKeeping.lift (clearDirectory_confined _ writes)).bind fun _ _ => ?_
    have made := makeDirectories_confined (region.writes_reads _ writes)
    refine (ConfinesKeeping.lift made.run).bind fun _ _ => ?_
    refine (ConfinesKeeping.lift (generations_confined serves keeps)).bind fun found _ => ?_
    refine (ConfinesKeeping.ofExcept fun _ told => told).bind fun next _ => ?_
    exact .modifyThen (fun _ _ still => still) (.pure writes)

omit serves in
theorem writeManifest_confined {staging : Staging} (inside : staging.In region) :
    region.ConfinesTask (writeManifest staging) fun _ => True := by
  have writes := region.writes_within _ _ (Path.within_child staging.directory manifestFile) inside
  refine (createFile_confined writes).run.bind fun file own => ?_
  refine (writeAt_confined own 0 _).run.bind fun _ _ => ?_
  split
  · exact sync_confined.run.bind fun _ _ =>
      syncDirectory_confined (region.writes_reads _ inside)
  · exact .pure trivial

omit serves in
theorem stage_confined {staging : Staging} (inside : staging.In region) :
    region.ConfinesKeeping (.always (Serves dir name)) (stage staging) fun _ => True :=
  (ConfinesKeeping.lift (writeManifest_confined inside)).bind fun _ _ =>
    .modifyThen (fun _ _ still => still) (.pure trivial)

omit serves in
theorem removeBelow_confined (generation : Nat) {found : List (Nat × Path)}
    (writes : ∀ item ∈ found, region.writes item.2) :
    region.ConfinesTask (removeBelow generation found) fun _ => True := by
  induction found with
  | nil => exact .pure trivial
  | cons item found ih =>
      rw [List.forall_mem_cons] at writes
      have removes : region.ConfinesTask (removeGeneration item.2) fun _ => True :=
        Confines.andThen (removeTree_confined writes.1) (fun _ volume => (.ok (), volume))
          (fun _ => rfl) fun _ _ _ => Confines.pure fun _ _ _ => trivial
      rw [removeBelow]
      split
      · exact removes.bind fun _ _ => ih writes.2
      · exact ih writes.2

theorem commit_confined :
    region.ConfinesKeeping (.always (Serves dir name)) commit fun _ => True := by
  refine .getThen fun keeper _ keeps => ?_
  split
  · exact .throw _
  · rename_i manifest _
    have target : region.writes (keeper.generationDirectory manifest.generation) := by
      obtain ⟨rfl, rfl⟩ := keeps
      exact serves.entries _ (belongs_generationName _ _)
    have moves := rename_confined (writes_stagingDirectory serves keeps) target
    refine (ConfinesKeeping.lift moves.run).bind fun _ _ => ?_
    refine .modifyThen (fun _ _ still => still) ?_
    refine (ConfinesKeeping.ofExcept fun _ told => told).bind fun next _ => ?_
    refine .modifyThen (fun _ _ still => still) ?_
    have rest : region.ConfinesKeeping (.always (Serves dir name)) (do
        let found ← (liftM keeper.generations : Keeping CheckpointKeeper _)
        (liftM (removeBelow manifest.generation found) : Keeping CheckpointKeeper Unit)
        pure manifest) fun _ => True := by
      refine (ConfinesKeeping.lift (generations_confined serves keeps)).bind fun found writes => ?_
      exact (ConfinesKeeping.lift (removeBelow_confined _ writes)).bind fun _ _ => .pure trivial
    dsimp only
    split
    · have directory : region.reads keeper.directory := keeps.1 ▸ serves.directory
      exact (ConfinesKeeping.lift (syncDirectory_confined directory)).bind fun _ _ => rest
    · exact rest

end CheckpointKeeper

end FingerprintSet
