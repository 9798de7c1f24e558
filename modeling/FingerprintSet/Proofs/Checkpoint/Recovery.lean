import FingerprintSet.Proofs.Checkpoint.History

/-!
# What recovery finds

The directory of a keeper may hold anything under the names of generations.  Recovery finds the
latest of those that are valid, whatever the others are, and tells a directory without
generations from one in which all are damaged.  It clears what is staged and touches nothing
else.
-/

namespace FingerprintSet

open Storage Volume SortedFile Checkpoint

variable {before after : Volume} {dir : Path} {name : String} {keeper : CheckpointKeeper}

/-- A checkpoint is the latest of the valid generations in a directory. -/
def Latest (volume : Volume) (dir : Path) (name : String) (checkpoint : Checkpoint) : Prop :=
  ∃ number, Stands volume dir name (number, checkpoint.directory) ∧
    Checkpoint.Valid volume checkpoint.directory number checkpoint.manifest ∧
    ∀ item manifest, Stands volume dir name item →
      Checkpoint.Valid volume item.2 item.1 manifest → item.1 ≤ number

/-- No two generations in a directory have the same number. -/
def Numbered (volume : Volume) (dir : Path) (name : String) : Prop :=
  ∀ first second, Stands volume dir name first → Stands volume dir name second →
    first.1 = second.1 → first = second

/-- There is only one latest generation. -/
theorem Latest.unique {checkpoint other : Checkpoint} (numbered : Numbered before dir name)
    (latest : Latest before dir name checkpoint) (also : Latest before dir name other) :
    checkpoint = other := by
  obtain ⟨number, stands, valid, highest⟩ := latest
  obtain ⟨otherNumber, otherStands, otherValid, otherHighest⟩ := also
  have same : number = otherNumber :=
    Nat.le_antisymm (otherHighest _ _ stands valid) (highest _ _ otherStands otherValid)
  obtain ⟨-, directory⟩ := Prod.mk.inj (numbered _ _ stands otherStands same)
  cases checkpoint
  cases other
  dsimp only at directory valid otherValid
  subst directory
  exact congrArg _ (valid.unique otherValid)

/-- The first valid one of all generations, from the highest number down, is the latest. -/
theorem latest_of_first {found skipped rest : List (Nat × Path)} {number : Nat}
    {checkpoint : Checkpoint} (ordered : found.Pairwise fun first second => first.1 ≤ second.1)
    (exactly : ∀ item, item ∈ found ↔ Stands before dir name item)
    (split : found.reverse = skipped ++ (number, checkpoint.directory) :: rest)
    (valid : Checkpoint.Valid before checkpoint.directory number checkpoint.manifest)
    (invalid : ∀ item ∈ skipped, ¬∃ manifest, Checkpoint.Valid before item.2 item.1 manifest) :
    Latest before dir name checkpoint := by
  have stands_iff (item : Nat × Path) : Stands before dir name item ↔
      item ∈ skipped ++ (number, checkpoint.directory) :: rest := by
    rw [← split, List.mem_reverse, exactly]
  have descending : (skipped ++ (number, checkpoint.directory) :: rest).Pairwise
      fun first second => second.1 ≤ first.1 := by
    rw [← split, List.pairwise_reverse]
    exact ordered
  refine ⟨number, ?_, valid, fun other manifest stands otherValid => ?_⟩
  · exact (stands_iff _).mpr (List.mem_append_right skipped List.mem_cons_self)
  · rcases List.mem_append.mp ((stands_iff other).mp stands) with early | late
    · exact absurd ⟨manifest, otherValid⟩ (invalid other early)
    · rcases List.mem_cons.mp late with rfl | late
      · exact Nat.le_refl _
      · exact List.rel_of_pairwise_cons (List.pairwise_append.mp descending).2.1 late

/-! ## Work outside the generations -/

section Spared

variable {paths : Path → Prop} {item : Nat × Path}

/-- What a generation holds is untouched while work spares it. -/
theorem Stands.bytes?_eq (stands : Stands before dir name item) (sound : before.Sound)
    (changes : Changes paths NoFile before after) (spares : Spares dir name paths) (file : String) :
    after.bytes? (item.2.child file) = before.bytes? (item.2.child file) := by
  obtain ⟨entry, number, path, -⟩ := stands
  rw [path]
  exact changes.bytes?_eq sound (spares.2 entry _ number _ (Path.within_child _ _))

/-- The same generations are valid while work spares them. -/
theorem valid_congr {manifest : Manifest} (stands : Stands before dir name item)
    (sound : before.Sound) (changes : Changes paths NoFile before after)
    (spares : Spares dir name paths) :
    Checkpoint.Valid after item.2 item.1 manifest ↔ Checkpoint.Valid before item.2 item.1 manifest :=
  ⟨fun valid => valid.congr fun file => (stands.bytes?_eq sound changes spares file).symm,
    fun valid => valid.congr (stands.bytes?_eq sound changes spares)⟩

/-- The same generation is the latest valid one while work spares all generations. -/
theorem latest_congr {checkpoint : Checkpoint} (sound : before.Sound)
    (changes : Changes paths NoFile before after) (spares : Spares dir name paths) :
    Latest after dir name checkpoint ↔ Latest before dir name checkpoint := by
  have stands (item : Nat × Path) : Stands after dir name item ↔ Stands before dir name item :=
    stands_congr changes spares
  constructor
  · rintro ⟨number, there, valid, highest⟩
    refine ⟨number, (stands _).mp there, ?_, fun item manifest other otherValid => ?_⟩
    · exact (valid_congr ((stands _).mp there) sound changes spares).mp valid
    · exact highest item manifest ((stands item).mpr other)
        ((valid_congr other sound changes spares).mpr otherValid)
  · rintro ⟨number, there, valid, highest⟩
    refine ⟨number, (stands _).mpr there, ?_, fun item manifest other otherValid => ?_⟩
    · exact (valid_congr there sound changes spares).mpr valid
    · have before_ := (stands item).mp other
      exact highest item manifest before_ ((valid_congr before_ sound changes spares).mp otherValid)

end Spared

/-! ## Loading the first that can be loaded -/

namespace CheckpointKeeper

theorem loadFirst_apply (number : Nat) (path : Path) (rest : List (Nat × Path)) (before : Volume) :
    loadFirst ((number, path) :: rest) before =
      match load path number before with
      | (.ok checkpoint, after) => (.ok (some checkpoint), after)
      | (.error _, after) => loadFirst rest after := by
  have unfolded : loadFirst ((number, path) :: rest) before =
      (tryCatch (some <$> load path number) fun _ => loadFirst rest :
        Task (Option Checkpoint)) before := rfl
  rw [unfolded, tryCatch_apply, map_apply]
  rcases load path number before with ⟨_ | _, _⟩ <;> rfl

/-- Of some generations the first valid one is loaded, if there is one. -/
theorem loadFirst_finds (sound : before.Sound) (quiet : before.Quiet) (found : List (Nat × Path)) :
    ∃ loaded after, loadFirst found before = (.ok loaded, after) ∧
      Changes Nowhere NoFile before after ∧
        ((loaded = none ∧ ∀ item ∈ found, ¬∃ manifest, Checkpoint.Valid before item.2 item.1 manifest) ∨
          ∃ skipped number checkpoint rest, loaded = some checkpoint ∧
            found = skipped ++ (number, checkpoint.directory) :: rest ∧
            Checkpoint.Valid before checkpoint.directory number checkpoint.manifest ∧
            ∀ item ∈ skipped, ¬∃ manifest, Checkpoint.Valid before item.2 item.1 manifest) := by
  induction found generalizing before with
  | nil => exact ⟨none, before, rfl, .refl before, Or.inl ⟨rfl, fun _ none => nomatch none⟩⟩
  | cons item found ih =>
      obtain ⟨number, path⟩ := item
      have unfolded := loadFirst_apply number path found before
      have loads : Decides (load path number) before _ _ := load_decides sound
      rcases loads.cases with
        ⟨checkpoint, after, result, changes, -, rfl, valid⟩ | ⟨error, after, result, changes, invalid⟩
      · rw [result] at unfolded
        exact ⟨_, after, unfolded, changes, Or.inr ⟨[], number, checkpoint, found, rfl, rfl, valid,
          fun _ none => nomatch none⟩⟩
      · rw [result] at unfolded
        have congr (item : Nat × Path) (manifest : Manifest) :
            Checkpoint.Valid after item.2 item.1 manifest ↔
              Checkpoint.Valid before item.2 item.1 manifest := by
          have same (file : String) :
              after.bytes? (item.2.child file) = before.bytes? (item.2.child file) :=
            changes.bytes?_eq sound fun nowhere => nowhere
          exact ⟨fun there => there.congr fun file => (same file).symm, fun there => there.congr same⟩
        obtain ⟨loaded, final, loads, more, which⟩ := ih (changes.sound sound) (changes.quiet quiet)
        refine ⟨loaded, final, unfolded.trans loads, changes.trans more, ?_⟩
        rcases which with ⟨rfl, none⟩ | ⟨skipped, other, checkpoint, rest, rfl, rfl, valid, before_⟩
        · refine Or.inl ⟨rfl, ?_⟩
          rw [List.forall_mem_cons]
          refine ⟨invalid quiet, fun item mem => ?_⟩
          simpa only [congr] using none item mem
        · refine Or.inr ⟨(number, path) :: skipped, other, checkpoint, rest, rfl, rfl,
            (congr (other, checkpoint.directory) _).mp valid, ?_⟩
          rw [List.forall_mem_cons]
          refine ⟨invalid quiet, fun item mem => ?_⟩
          simpa only [congr] using before_ item mem

/-- What recovery makes of the generations that were found and the one that was loaded. -/
def verdict (keeper : CheckpointKeeper) (found : List (Nat × Path)) :
    Option Checkpoint → Except Error (Option Checkpoint)
  | some checkpoint => .ok (some checkpoint)
  | none =>
      if found.isEmpty then .ok none
      else .error (.corrupt keeper.directory (.noneLoadable found.length keeper.name))

theorem recover_apply {cleared listed final : Volume} {found : List (Nat × Path)}
    {loaded : Option Checkpoint}
    (clear : clearDirectory .removing keeper.stagingDirectory before = (.ok (), cleared))
    (list : keeper.generations cleared = (.ok found, listed))
    (loads : loadFirst found.reverse listed = (.ok loaded, final)) :
    keeper.recover before = (keeper.verdict found loaded, final) := by
  rw [recover, bind_apply, clear]
  dsimp only
  rw [bind_apply, list]
  dsimp only
  rw [bind_apply, loads]
  cases loaded with
  | some checkpoint => rfl
  | none => cases found <;> rfl

/-- How recovery ends on a directory of any contents. -/
theorem recover_finds (sound : before.Sound) (quiet : before.Quiet)
    (isDir : before.IsDir keeper.directory)
    (staging : ∀ id, before.binding? keeper.stagingDirectory ≠ some (.file id)) :
    ∃ result after, keeper.recover before = (result, after) ∧
      Changes (Within keeper.stagingDirectory) NoFile before after ∧
      (∀ path, Within keeper.stagingDirectory path → after.binding? path = none) ∧
      ((∃ checkpoint, result = .ok (some checkpoint) ∧
          Latest before keeper.directory keeper.name checkpoint) ∨
        (result = .ok none ∧ ∀ item, ¬Stands before keeper.directory keeper.name item) ∨
        ∃ count, result = .error (.corrupt keeper.directory (.noneLoadable count keeper.name)) ∧
          (∃ item, Stands before keeper.directory keeper.name item) ∧
          ∀ item manifest, Stands before keeper.directory keeper.name item →
            ¬Checkpoint.Valid before item.2 item.1 manifest) := by
  have clears := clearDirectory_meets sound .removing staging
  rcases clears.cases with ⟨_, cleared, clear, changes, gone⟩ | ⟨_, _, _, _, refused⟩
  swap
  · exact absurd quiet refused
  have clearedSound := changes.sound sound
  have spares := spares_staging keeper.directory keeper.name
  have isDirStill := changes.isDir spares.1 isDir
  have lists : Runs (generationsIn keeper.directory keeper.name) cleared Nowhere NoFile _ :=
    generationsIn_runs clearedSound isDirStill
  obtain ⟨found, listed, list, looked, ordered, exactly⟩ := lists.of_quiet (changes.quiet quiet)
  obtain ⟨loaded, final, load_, last, which⟩ := loadFirst_finds (looked.sound clearedSound)
    (looked.quiet (changes.quiet quiet)) found.reverse
  -- The volume that is listed and loaded from differs from the first one in what was staged only.
  have sinceListed := changes.trans looked.ofNothing
  have all := sinceListed.trans last.ofNothing
  have mem_iff (item : Nat × Path) :
      item ∈ found ↔ Stands before keeper.directory keeper.name item :=
    (exactly item).trans (stands_congr changes spares)
  have unfolded := recover_apply clear list load_
  have goneStill (path : Path) (within : Within keeper.stagingDirectory path) :
      final.binding? path = none := by
    rw [last.entry_eq _ (fun nowhere => nowhere), looked.entry_eq _ (fun nowhere => nowhere)]
    exact gone path within
  rcases which with ⟨rfl, invalid⟩ | ⟨skipped, number, checkpoint, rest, rfl, split, valid, invalid⟩
  · cases found with
    | nil =>
        refine ⟨_, final, unfolded, all, goneStill, Or.inr (Or.inl ⟨rfl, fun item stands => ?_⟩)⟩
        exact List.not_mem_nil ((mem_iff item).mpr stands)
    | cons item others =>
        refine ⟨_, final, unfolded, all, goneStill, Or.inr (Or.inr ⟨_, rfl, ?_, ?_⟩)⟩
        · exact ⟨item, (mem_iff item).mp List.mem_cons_self⟩
        · intro other manifest stands valid
          exact invalid other (List.mem_reverse.mpr ((mem_iff other).mpr stands))
            ⟨manifest, (valid_congr stands sound sinceListed spares).mpr valid⟩
  · refine ⟨_, final, unfolded, all, goneStill, Or.inl ⟨checkpoint, rfl, ?_⟩⟩
    have standing (item : Nat × Path) :
        item ∈ found ↔ Stands listed keeper.directory keeper.name item :=
      (mem_iff item).trans (stands_congr sinceListed spares).symm
    exact (latest_congr sound sinceListed spares).mp
      (latest_of_first ordered standing split valid invalid)

end CheckpointKeeper

/-- Recovery finds the latest valid generation of a directory, finds nothing where no generation
stands, and fails where generations stand and none is valid.  It leaves nothing of what was
staged and every generation as it was, and the stream of a valid one gives what its files hold. -/
theorem recovers_latest_valid (sound : before.Sound) (quiet : before.Quiet)
    (isDir : before.IsDir keeper.directory)
    (numbered : Numbered before keeper.directory keeper.name)
    (staging : ∀ id, before.binding? keeper.stagingDirectory ≠ some (.file id)) :
    ∃ result after, keeper.recover before = (result, after) ∧
      (∀ checkpoint, result = .ok (some checkpoint) ↔
        Latest before keeper.directory keeper.name checkpoint) ∧
      (result = .ok none ↔ ∀ item, ¬Stands before keeper.directory keeper.name item) ∧
      ((∃ count, result = .error (.corrupt keeper.directory (.noneLoadable count keeper.name))) ↔
        (∃ item, Stands before keeper.directory keeper.name item) ∧
          ∀ item manifest, Stands before keeper.directory keeper.name item →
            ¬Checkpoint.Valid before item.2 item.1 manifest) ∧
      (∀ path, Within keeper.stagingDirectory path → after.binding? path = none) ∧
      ∀ item, Stands before keeper.directory keeper.name item →
        (∀ path, Within item.2 path →
          after.binding? path = before.binding? path ∧ after.bytes? path = before.bytes? path) ∧
        ∀ manifest, Checkpoint.Valid before item.2 item.1 manifest →
          (Checkpoint.fingerprints { directory := item.2, manifest } after).1 =
              .ok (listed before item.2 manifest.segments) ∧
            (listed before item.2 manifest.segments).length = manifest.count := by
  obtain ⟨result, after, recovers, changes, gone, ends⟩ :=
    CheckpointKeeper.recover_finds sound quiet isDir staging
  have spares := spares_staging keeper.directory keeper.name
  have untouched {item : Nat × Path} (stands : Stands before keeper.directory keeper.name item)
      {path : Path} (within : Within item.2 path) : ¬Within keeper.stagingDirectory path := by
    obtain ⟨entry, number, directory, -⟩ := stands
    exact spares.2 entry _ number path (directory ▸ within)
  refine ⟨result, after, recovers, ?_, ?_, ?_, gone, ?_⟩
  · intro checkpoint
    rcases ends with ⟨other, rfl, latest⟩ | ⟨rfl, none⟩ | ⟨count, rfl, -, invalid⟩
    · constructor
      · intro same
        cases same
        exact latest
      · intro also
        rw [latest.unique numbered also]
    · refine ⟨fun impossible => (nomatch impossible), ?_⟩
      rintro ⟨number, stands, -⟩
      exact absurd stands (none _)
    · refine ⟨fun impossible => (nomatch impossible), ?_⟩
      rintro ⟨number, stands, valid, -⟩
      exact absurd valid (invalid _ _ stands)
  · rcases ends with ⟨other, rfl, number, stands, -⟩ | ⟨rfl, none⟩ | ⟨count, rfl, ⟨item, stands⟩, -⟩
    · exact ⟨fun impossible => (nomatch impossible), fun none => absurd stands (none _)⟩
    · exact iff_of_true rfl none
    · exact ⟨fun impossible => (nomatch impossible), fun none => absurd stands (none _)⟩
  · rcases ends with ⟨other, rfl, number, stands, valid, -⟩ | ⟨rfl, none⟩ | ⟨count, rfl, some, invalid⟩
    · refine ⟨fun ⟨_, impossible⟩ => (nomatch impossible), fun ⟨_, invalid⟩ => ?_⟩
      exact absurd valid (invalid _ _ stands)
    · refine ⟨fun ⟨_, impossible⟩ => (nomatch impossible), fun ⟨⟨item, stands⟩, _⟩ => ?_⟩
      exact absurd stands (none item)
    · exact iff_of_true ⟨count, rfl⟩ ⟨some, invalid⟩
  · intro item stands
    constructor
    · intro path within
      have outside := untouched stands within
      exact ⟨changes.entry_eq path outside, changes.bytes?_eq sound outside⟩
    · intro manifest valid
      have still := (valid_congr stands sound changes spares).mpr valid
      obtain ⟨held, final, read, -, rfl⟩ :=
        (fingerprints_runs (changes.sound sound) still).of_quiet (changes.quiet quiet)
      rw [read, listed_congr (stands.bytes?_eq sound changes spares)]
      exact ⟨rfl, valid.length_listed⟩

/-- A keeper in charge of the root. -/
def rootKeeper : CheckpointKeeper where
  directory := []
  name := "fps"
  durable := false
  nextGeneration := 1
  staged := none

/-- A life that publishes a generation and is stopped in the middle of another checkpoint. -/
def interruptedLife : Life where
  faults := fun _ => none
  durable := false
  recovers := false
  commands := [.begin 7 1, .segment 0 [3, 5], .segment 1 [9], .stage, .commit, .begin 7 1,
    .segment 0 [3]]

/-- What that life leaves behind. -/
def interrupted : Volume :=
  (history [] "fps" [interruptedLife] {}).2.reschedule fun _ => none

/-- The generation that it published. -/
def interruptedGeneration : Generation where
  number := 1
  seed := 7
  segmentBits := 1
  parts := [{ index := 0, held := [3, 5] }, { index := 1, held := [9] }]

theorem interrupted_between : Between [] "fps" 1 (some interruptedGeneration) interrupted := by
  have published : (history [] "fps" [interruptedLife] {}).1 = some interruptedGeneration := by
    decide +kernel
  have lawful : ∀ life ∈ [interruptedLife], Lawful [] 0 life.commands := by
    simp [interruptedLife, Lawful, Ascending]
    decide
  exact (history_between (untouched_empty (by decide)) lawful (by decide)
    (Prod.ext published rfl)).reschedule _

/-- What that generation is found as. -/
def interruptedCheckpoint : Checkpoint :=
  interruptedGeneration.checkpoint [] "fps"

theorem interrupted_stands_iff (item : Nat × Path) :
    Stands interrupted [] "fps" item ↔ item = (1, interruptedCheckpoint.directory) := by
  have children : interrupted.children [] = ["fps.chkpt.00000001", "fps.chkpt.staging"] := by
    decide +kernel
  have directory : interruptedCheckpoint.directory = ["fps.chkpt.00000001"] := by decide +kernel
  rw [stands_iff, children, directory]
  constructor
  · rintro ⟨entry, mem, number, path, -⟩
    rcases List.mem_pair.mp mem with rfl | rfl
    · exact Prod.ext (Option.some.inj number.symm) path
    · exact absurd (number.symm.trans (generationOf?_stagingName "fps")) (Option.some_ne_none _)
  · rintro rfl
    exact ⟨_, List.mem_cons_self, by decide, rfl, by decide +kernel⟩

theorem interrupted_valid : Checkpoint.Valid interrupted interruptedCheckpoint.directory 1
    interruptedCheckpoint.manifest := by
  have between := interrupted_between
  exact valid_of_complete (between.kept.complete _ rfl) (between.kept.sound _ rfl)
    (between.counted _ rfl)

theorem interrupted_listed :
    listed interrupted interruptedCheckpoint.directory interruptedCheckpoint.manifest.segments =
      [3, 5, 9] :=
  listed_of_complete (interrupted_between.kept.complete _ rfl)

theorem interrupted_numbered : Numbered interrupted [] "fps" := by
  intro first second stands other _
  rw [(interrupted_stands_iff first).mp stands, (interrupted_stands_iff second).mp other]

theorem interrupted_latest : Latest interrupted [] "fps" interruptedCheckpoint := by
  refine ⟨1, (interrupted_stands_iff _).mpr rfl, interrupted_valid, fun item manifest other _ => ?_⟩
  exact Nat.le_of_eq (congrArg Prod.fst ((interrupted_stands_iff item).mp other))

/-- The published generation is found behind the one that was begun, and nothing is left of the
latter. -/
theorem recovers_latest_valid_interrupted :
    interrupted.binding? ["fps.chkpt.staging", "seg-0000.fps"] ≠ none ∧
      ∃ checkpoint after, rootKeeper.recover interrupted = (.ok (some checkpoint), after) ∧
        (Checkpoint.fingerprints checkpoint after).1 = .ok [3, 5, 9] ∧
        after.binding? ["fps.chkpt.staging", "seg-0000.fps"] = none := by
  have between := interrupted_between
  have isDir : interrupted.IsDir rootKeeper.directory := between.kept.isDir
  obtain ⟨result, after, recovers, finds, -, -, gone, leaves⟩ := recovers_latest_valid between.sound
    (fun _ _ => rfl) isDir interrupted_numbered between.kept.staging
  have found := (finds _).mpr interrupted_latest
  refine ⟨by decide +kernel, _, after, found ▸ recovers, ?_, ?_⟩
  · have reads := ((leaves _ ((interrupted_stands_iff _).mpr rfl)).2 _ interrupted_valid).1
    exact reads.trans (congrArg _ interrupted_listed)
  · exact gone _ (show Path.within ["fps.chkpt.staging"] _ = true by decide)

/-- A directory in which a file stands under the name of what is staged. -/
def blocked : Volume :=
  (createFile ["fps.chkpt.staging"] {}).2

/-- Recovery does not get past a file where it expects what was staged, although no generation
stands in the directory. -/
theorem recover_blocked :
    (rootKeeper.recover blocked).1 =
        .error (.storage (.removing ["fps.chkpt.staging"]) (.refused .notDirectory)) ∧
      ∀ item, ¬Stands blocked rootKeeper.directory rootKeeper.name item := by
  refine ⟨by decide +kernel, ?_⟩
  rintro item ⟨entry, -, path, bound⟩
  have fits : FitsDirectory "fps.chkpt.staging" := by constructor <;> decide
  have creates : Runs (createFile (Path.child [] "fps.chkpt.staging")) {} _ _ _ :=
    createFile_runs (empty_sound _) (Or.inl rfl) fits (empty_binding? _ _)
  obtain ⟨id, after, result, changes, -, -, file, -⟩ := creates.of_quiet fun _ _ => rfl
  have same : blocked = after := congrArg Prod.snd result
  rw [same, path, show rootKeeper.directory = [] from rfl] at bound
  by_cases staging : entry = "fps.chkpt.staging"
  · rw [staging, file] at bound
    exact nomatch Option.some.inj bound
  · rw [changes.entry_eq _ (fun at_ => staging (Path.child_inj.mp at_)), empty_binding?] at bound
    contradiction

end FingerprintSet
