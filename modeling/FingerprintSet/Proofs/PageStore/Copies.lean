import FingerprintSet.Proofs.PageStore.Jobs
import FingerprintSet.Proofs.PageStore.Numbers
import FingerprintSet.Proofs.PageStore.Tiers
import FingerprintSet.Proofs.Storage.Deciding
import Mathlib.Data.List.Pairwise

/-!
# How often tiered merges copy an entry

Pages are appended, and behind each of them the tiered merge is run and installed, if there is one.
A merge of a shared size class makes the page of each entry that it copies grow by a quarter at
least, so that it copies an entry only logarithmically often.  This says nothing of the merges of
the two smallest pages, which are made where no class is shared.  There are none while more pages
may be kept than there are classes; beside one large page, however, they copy the same entries again
and again.
-/

namespace FingerprintSet

open Storage Volume SortedFile

namespace PageStore

/-- How many merges copied an entry. -/
structure Copies where
  /-- Merges of a class that pages shared. -/
  tiered : Nat
  /-- Merges of the two smallest pages. -/
  fallback : Nat
  deriving DecidableEq, Repr

namespace Copies

def none : Copies where
  tiered := 0
  fallback := 0

/-- One merge, of a shared class or not, that copied the entry or did not. -/
def ofMerge (shared copied : Bool) : Copies where
  tiered := (shared && copied).toNat
  fallback := (!shared && copied).toNat

def all (copies : Copies) : Nat :=
  copies.tiered + copies.fallback

theorem ofMerge_uncopied {shared : Bool} {fp : Fingerprint} {fps : List Fingerprint}
    (foreign : fp ∉ fps) : ofMerge shared (fps.contains fp) = none := by
  simp [ofMerge, none, foreign]

theorem ofMerge_tiered {shared : Bool} {fp : Fingerprint} {fps : List Fingerprint}
    (isEntry : fp ∈ fps) : (ofMerge shared (fps.contains fp)).tiered = shared.toNat := by
  simp [ofMerge, isEntry]

theorem ofMerge_all {shared : Bool} {fp : Fingerprint} {fps : List Fingerprint}
    (isEntry : fp ∈ fps) : (ofMerge shared (fps.contains fp)).all = 1 := by
  cases shared <;> simp [ofMerge, all, isEntry]

def add (first second : Copies) : Copies where
  tiered := first.tiered + second.tiered
  fallback := first.fallback + second.fallback

theorem add_all (first second : Copies) : (first.add second).all = first.all + second.all := by
  simp only [add, all]
  omega

theorem none_add (copies : Copies) : none.add copies = copies := by
  rw [add, none, Nat.zero_add, Nat.zero_add]

theorem add_assoc (first second third : Copies) :
    (first.add second).add third = first.add (second.add third) := by
  rw [add, add, add, add, Nat.add_assoc, Nat.add_assoc]

end Copies

/-- Whether the file at a path has an entry. -/
def lists (path : Path) (fp : Fingerprint) : Task Bool := do
  let volume ← getThe Volume
  pure ((volume.bytes? path).any fun bytes => (entriesIn bytes).contains fp)

/-- Run and install the tiered merge if there is one, and see whether it copied an entry. -/
def mergeTiered (maxPages : Nat) (fp : Fingerprint) : Keeping PageStore Copies := do
  let shared := !(sharedTiers (← get).pages).isEmpty
  match ← tieredCompactionJob maxPages with
  | none => pure .none
  | some job =>
      let merged ← (job.run : Task MergedPage)
      let copied ← (lists merged.written.path fp : Task Bool)
      install merged
      pure (.ofMerge shared copied)

/-- Append a page and merge.  The copies of one entry are counted. -/
def round (maxPages : Nat) (fp : Fingerprint) (fps : List Fingerprint) :
    Keeping PageStore Copies := do
  append fps
  mergeTiered maxPages fp

/-- Append pages one after the other, each with the merge behind it. -/
def rounds (maxPages : Nat) (fp : Fingerprint) : List (List Fingerprint) → Keeping PageStore Copies
  | [] => pure .none
  | fps :: batches => do
      let first ← round maxPages fp fps
      let others ← rounds maxPages fp batches
      pure (first.add others)

/-! ## What a merge leaves -/

section

variable {before : Volume} {entries : PageId → List Fingerprint} {store : PageStore}
  {maxPages : Nat} {fp : Fingerprint}

/-- What the next number stands for once the tiered merge is prepared under it. -/
def chosenEntries (entries : PageId → List Fingerprint) (store : PageStore) : List Fingerprint :=
  sorted ((tieredChoice store.pages).flatMap entries)

/-- What a round's merge leaves: all as it was, or a page with the entries of those chosen. -/
inductive Merges (maxPages : Nat) (fp : Fingerprint) (entries : PageId → List Fingerprint)
    (store : PageStore) : Copies → (PageId → List Fingerprint) → PageStore → Prop
  | rests (few : store.pageCount ≤ maxPages ∨ (tieredChoice store.pages).length < 2) :
      Merges maxPages fp entries store .none entries store
  | merges {last : PageStore} (many : maxPages < store.pageCount)
      (several : 2 ≤ (tieredChoice store.pages).length)
      (ids : last.ids = (store.ids.filter fun id => !(tieredChoice store.pages).contains id) ++
        [store.nextId]) :
      Merges maxPages fp entries store
        (.ofMerge (!(sharedTiers store.pages).isEmpty) ((chosenEntries entries store).contains fp))
        (assign entries store.nextId (chosenEntries entries store)) last

theorem lists_runs {path : Path} {fps : List Fingerprint} {file : FileId}
    (holds : Holds before path .page fps file) :
    Runs (lists path fp) before Nowhere NoFile fun found after =>
      after = before ∧ found = fps.contains fp := by
  refine Meets.of_ok rfl ⟨.refl before, rfl, ?_⟩
  rw [bytes?_eq holds.bound, holds.bytes, Option.any_some, entriesIn_fileBytes]

/-- The merge of a round does as it should, if nothing is refused. -/
theorem mergeTiered_runs (volumeSound : before.Sound) (sound : store.Sound before entries)
    (room : store.nextId < numberLimit)
    (few : (store.contents entries).length < countLimit) :
    Keeping.Runs (mergeTiered maxPages fp) store before (fun _ => True) NoFile
      (fun copies last after => ∃ others, Merges maxPages fp entries store copies others last ∧
        last.Sound after others ∧ last.nextId ≤ store.nextId + 1 ∧
        ((store.contents entries).Nodup →
          (last.contents others).Perm (store.contents entries)))
      fun _ _ => True := by
  have fewEach : ∀ id ∈ store.ids, (entries id).length < countLimit := fun id mem =>
    Nat.lt_of_le_of_lt (length_le_contents mem) few
  apply Keeping.Runs.getThen
  apply Keeping.Runs.bind ((tieredCompactionJob_runs volumeSound sound fewEach maxPages).mono
    (fun _ _ _ changes offers => And.intro changes offers) fun _ _ _ _ => trivial).ofNothing
  rintro job middle middleVolume - ⟨changes, offers⟩
  have middleSound := changes.sound volumeSound
  have stillSound := sound.of_nothing volumeSound changes
  cases job with
  | none =>
      apply Keeping.Runs.pure
      rcases offers with ⟨fits, -, rfl⟩ | ⟨-, rfl, single⟩
      · exact ⟨entries, .rests (Or.inl fits), stillSound, Nat.le_succ _, fun _ => .refl _⟩
      · exact ⟨entries, .rests (Or.inr single), stillSound, Nat.le_succ _, fun _ => .refl _⟩
  | some job =>
      obtain ⟨-, absurd, -⟩ | ⟨tooMany, rfl, replaced, several, target, prepared⟩ := offers
      · contradiction
      let others := assign entries store.nextId (chosenEntries entries store)
      have assigned : store.numberUsed.Sound middleVolume others :=
        sound.merging volumeSound changes (tieredChoice store.pages)
      have same : store.numberUsed.contents others = store.contents entries :=
        sound.contents_merging (tieredChoice store.pages)
      have runs := CompactionJob.run_runs middleSound assigned.isDir (target ▸ room) prepared
      apply Keeping.Runs.liftThen ((Runs.mono runs fun _ _ more ends => And.intro more ends).widen
        (fun _ _ => trivial) fun _ _ none => none) fun _ _ => trivial
      rintro merged ran - ⟨more, ready, id, replacedEq⟩
      rw [replaced] at replacedEq
      rw [target] at id
      have live : ∀ id ∈ merged.replaced, id ∈ store.ids :=
        replacedEq ▸ tieredChoice_sublist store.pages
      obtain ⟨file, holds⟩ := ready.filed
      apply Keeping.Runs.liftThen (lists_runs holds).ofNothing fun _ _ => trivial
      rintro copied _ - ⟨rfl, rfl⟩
      have installs := install_runs (more.sound middleSound)
        (assigned.of_target middleSound prepared more) ready
      apply Keeping.Runs.bind ((installs.widen (fun _ _ => trivial) fun _ _ none => none).mono
        (fun _ _ _ _ installed => installed) fun _ _ _ _ => trivial)
      rintro _ last final - ⟨lastSound, ids, nextId, -, -⟩
      apply Keeping.Runs.pure
      refine ⟨others, ?_, lastSound, Nat.le_of_eq nextId, fun distinct => ?_⟩
      · have gives : mergedEntries entries store (tieredChoice store.pages) merged.id =
            chosenEntries entries store := by
          rw [id]
          exact assign_self _ _ _
        have placed := ids.trans (if_pos live)
        rw [id, replacedEq] at placed
        rw [gives]
        exact .merges tooMany several placed
      · have kept := contents_installed ready (same.symm ▸ distinct)
        rw [← ids] at kept
        exact same ▸ kept

/-- What a round leaves. -/
def Rounded (maxPages : Nat) (fp : Fingerprint) (fps : List Fingerprint)
    (entries : PageId → List Fingerprint) (store : PageStore) (copies : Copies)
    (others : PageId → List Fingerprint) (last : PageStore) : Prop :=
  ∃ grown volume, grown.Sound volume (assign entries store.nextId fps) ∧
    grown.ids = store.ids ++ [store.nextId] ∧
    Merges maxPages fp (assign entries store.nextId fps) grown copies others last

theorem round_runs {fps : List Fingerprint} (volumeSound : before.Sound)
    (sound : store.Sound before entries) (nonempty : fps ≠ []) (ascending : Ascending fps)
    (distinct : (store.contents entries ++ fps).Nodup) (room : store.nextId + 1 < numberLimit)
    (few : (store.contents entries ++ fps).length < countLimit) :
    Keeping.Runs (round maxPages fp fps) store before (fun _ => True) NoFile
      (fun copies last after => ∃ others,
        Rounded maxPages fp fps entries store copies others last ∧ last.Sound after others ∧
        last.nextId ≤ store.nextId + 2 ∧
        (last.contents others).Perm (store.contents entries ++ fps))
      fun _ _ => True := by
  have appends := append_runs volumeSound sound nonempty ascending (Nat.lt_of_succ_lt room)
  apply Keeping.Runs.bind ((appends.widen (fun _ _ => trivial) fun _ _ none => none).mono
    (fun _ _ _ changes appended => And.intro changes appended) fun _ _ _ _ => trivial)
  rintro _ grown middle - ⟨changes, grownSound, ids, nextId, -, -⟩
  have contents := @Sound.contents_appended _ _ _ sound _ fps ids
  rw [← contents] at distinct few
  apply (mergeTiered_runs (changes.sound volumeSound) grownSound (nextId ▸ room) few).mono
  · rintro copies last after - ⟨others, merges, lastSound, numbered, same⟩
    rw [nextId] at numbered
    exact ⟨others, ⟨grown, middle, grownSound, ids, merges⟩, lastSound, numbered,
      contents ▸ same distinct⟩
  · exact fun _ _ _ _ => trivial

/-- What every round hands on to the next one is there after the last. -/
theorem rounds_runs {kind : List Fingerprint → Prop}
    {inv : Copies → (PageId → List Fingerprint) → PageStore → Prop} {most : Nat}
    (step : ∀ {copies more : Copies} {entries others : PageId → List Fingerprint}
      {store last : PageStore} {volume : Volume} {fps : List Fingerprint},
      inv copies entries store → store.Sound volume entries → kind fps → fps ≠ [] →
      (store.contents entries ++ fps).Nodup → (store.contents entries ++ fps).length ≤ most →
      Rounded maxPages fp fps entries store more others last →
      (last.contents others).Perm (store.contents entries ++ fps) →
      inv (copies.add more) others last) {copies : Copies} {batches : List (List Fingerprint)}
    (volumeSound : before.Sound) (sound : store.Sound before entries)
    (start : inv copies entries store)
    (each : ∀ fps ∈ batches, kind fps ∧ fps ≠ [] ∧ Ascending fps)
    (distinct : (store.contents entries ++ batches.flatten).Nodup)
    (room : store.nextId + 2 * batches.length ≤ numberLimit)
    (length : (store.contents entries ++ batches.flatten).length = most)
    (few : most < countLimit) :
    Keeping.Runs (rounds maxPages fp batches) store before (fun _ => True) NoFile
      (fun more last after => ∃ others, last.Sound after others ∧
        inv (copies.add more) others last ∧
        (last.contents others).Perm (store.contents entries ++ batches.flatten))
      fun _ _ => True := by
  induction batches generalizing store before entries copies with
  | nil =>
      apply Keeping.Runs.pure
      refine ⟨entries, sound, start, ?_⟩
      rw [List.flatten_nil, List.append_nil]
  | cons fps batches ih =>
      rw [List.forall_mem_cons] at each
      rw [List.flatten_cons, ← List.append_assoc] at distinct length
      rw [List.length_cons] at room
      obtain ⟨⟨isKind, nonempty, ascending⟩, others⟩ := each
      have here := distinct.sublist (List.sublist_append_left _ _)
      have below : (store.contents entries ++ fps).length ≤ most :=
        length ▸ (List.sublist_append_left _ _).length_le
      have roomHere : store.nextId + 1 < numberLimit := Nat.lt_of_lt_of_le (by omega) room
      apply Keeping.Runs.bind (round_runs volumeSound sound nonempty ascending here roomHere
        (Nat.lt_of_le_of_lt below few))
      rintro first middle after changes ⟨middleEntries, rounded, middleSound, numbered, same⟩
      have roomBehind := calc
        middle.nextId + 2 * batches.length
          ≤ store.nextId + 2 + 2 * batches.length := Nat.add_le_add_right numbered _
        _ = store.nextId + 2 * (batches.length + 1) := by
          rw [Nat.mul_succ, Nat.add_assoc, Nat.add_comm 2]
        _ ≤ numberLimit := room
      have rest := ih (changes.sound volumeSound) middleSound
        (step start sound isKind nonempty here below rounded same) others
        ((same.append_right _).nodup_iff.mpr distinct) roomBehind
        ((same.append_right _).length_eq.trans length)
      apply Keeping.Runs.bind rest
      rintro more last final - ⟨lastEntries, lastSound, still, lastSame⟩
      apply Keeping.Runs.pure
      refine ⟨lastEntries, lastSound, ?_, ?_⟩
      · rw [← Copies.add_assoc]
        exact still
      · rw [List.flatten_cons, ← List.append_assoc]
        exact lastSame.trans (same.append_right _)

/-! ## Merges of a shared class -/

/-- No entry is in two pages. -/
theorem eq_of_mem_both (distinct : (store.contents entries).Nodup) {first second : PageId}
    (firstMem : first ∈ store.ids) (secondMem : second ∈ store.ids) (inFirst : fp ∈ entries first)
    (inSecond : fp ∈ entries second) : first = second := by
  have symmetric : Std.Symm (Function.onFun List.Disjoint entries) :=
    ⟨fun _ _ disjoint => disjoint.symm⟩
  by_contra different
  exact (List.nodup_flatMap.mp distinct).2.forall firstMem secondMem different inFirst inSecond

theorem mem_chosenEntries : fp ∈ chosenEntries entries store ↔
    ∃ id ∈ tieredChoice store.pages, fp ∈ entries id := by
  rw [chosenEntries, mem_sorted, List.mem_flatMap]

theorem length_chosenEntries_le :
    (chosenEntries entries store).length ≤ ((tieredChoice store.pages).flatMap entries).length :=
  (sorted_ascending _).nodup.length_le_of_subset fun _ => mem_sorted.mp

/-- All entries of a page that is chosen are merged. -/
theorem length_le_chosenEntries (distinct : (store.contents entries).Nodup) {id : PageId}
    (chosen : id ∈ tieredChoice store.pages) :
    (entries id).length ≤ (chosenEntries entries store).length := by
  have mem := tieredChoice_sublist store.pages id chosen
  apply ((List.nodup_flatMap.mp distinct).1 id mem).length_le_of_subset
  exact fun fp isEntry => mem_chosenEntries.mpr ⟨id, chosen, isEntry⟩

theorem add_length_le_chosenEntries (distinct : (store.contents entries).Nodup)
    {first second : PageId} (different : first ≠ second)
    (firstChosen : first ∈ tieredChoice store.pages)
    (secondChosen : second ∈ tieredChoice store.pages) :
    (entries first).length + (entries second).length ≤ (chosenEntries entries store).length := by
  have firstMem := tieredChoice_sublist store.pages first firstChosen
  have secondMem := tieredChoice_sublist store.pages second secondChosen
  have each := (List.nodup_flatMap.mp distinct).1
  have both : (entries first ++ entries second).Nodup := by
    refine List.nodup_append'.mpr ⟨each first firstMem, each second secondMem, ?_⟩
    exact fun fp inFirst inSecond =>
      different (eq_of_mem_both distinct firstMem secondMem inFirst inSecond)
  rw [← List.length_append]
  apply both.length_le_of_subset
  intro fp mem
  rcases List.mem_append.mp mem with isEntry | isEntry
  · exact mem_chosenEntries.mpr ⟨first, firstChosen, isEntry⟩
  · exact mem_chosenEntries.mpr ⟨second, secondChosen, isEntry⟩

/-- What is known of the page of an entry that merges of shared classes copied some times. -/
structure Copied (fp : Fingerprint) (tiered : Nat) (entries : PageId → List Fingerprint)
    (store : PageStore) : Prop where
  filled : ∀ id ∈ store.ids, entries id ≠ []
  grown : ∀ id ∈ store.ids, fp ∈ entries id → 5 ^ tiered ≤ 4 ^ tiered * (entries id).length
  absent : fp ∉ store.contents entries → tiered = 0

variable {volume : Volume} {others : PageId → List Fingerprint} {last : PageStore} {tiered : Nat}

/-- Of some pages and one under the next number, the old ones stand for what they stood for. -/
theorem Sound.cases_assigned (sound : store.Sound volume entries) {kept : List PageId}
    (sub : ∀ id ∈ kept, id ∈ store.ids) (fps : List Fingerprint) {id : PageId}
    (mem : id ∈ kept ++ [store.nextId]) :
    id ∈ kept ∧ assign entries store.nextId fps id = entries id ∨
      assign entries store.nextId fps id = fps := by
  rw [List.mem_append, List.mem_singleton] at mem
  rcases mem with old | rfl
  · exact Or.inl ⟨old, assign_ne _ _ (Nat.ne_of_lt (sound.id_lt (sub id old)))⟩
  · exact Or.inr (assign_self _ _ _)

theorem Copied.appended {fps : List Fingerprint} (copied : Copied fp tiered entries store)
    (sound : store.Sound volume entries) (nonempty : fps ≠ [])
    (distinct : (store.contents entries ++ fps).Nodup)
    (ids : last.ids = store.ids ++ [store.nextId]) :
    Copied fp tiered (assign entries store.nextId fps) last := by
  constructor
  · intro id mem
    rcases sound.cases_assigned (fun _ here => here) fps (ids ▸ mem) with ⟨old, same⟩ | same
    · exact same ▸ copied.filled id old
    · rw [same]
      exact nonempty
  · intro id mem isEntry
    rcases sound.cases_assigned (fun _ here => here) fps (ids ▸ mem) with ⟨old, same⟩ | same
    · rw [same] at isEntry ⊢
      exact copied.grown id old isEntry
    · rw [same] at isEntry ⊢
      have foreign : fp ∉ store.contents entries := fun held =>
        (List.disjoint_of_nodup_append distinct) held isEntry
      simp only [copied.absent foreign, Nat.pow_zero, Nat.one_mul]
      exact List.length_pos_of_mem isEntry
  · intro foreign
    rw [sound.contents_appended ids, List.mem_append] at foreign
    exact copied.absent fun held => foreign (Or.inl held)

/-- A merge of a shared class makes the page of an entry that it copies grow by a quarter. -/
theorem quarter_le_chosenEntries (copied : Copied fp tiered entries store)
    (sound : store.Sound volume entries) (distinct : (store.contents entries).Nodup)
    (shared : sharedTiers store.pages ≠ []) {id : PageId}
    (chosen : id ∈ tieredChoice store.pages) :
    5 * (entries id).length ≤ 4 * (chosenEntries entries store).length := by
  obtain ⟨page, mem, rfl, other, otherMem, different, otherChosen, same⟩ :=
    exists_other_chosen sound.distinct shared chosen
  have both := add_length_le_chosenEntries distinct different.symm chosen otherChosen
  have count := (sound.describes page mem).count
  have otherCount := (sound.describes other otherMem).count
  have filled : 0 < other.count := by
    rw [otherCount]
    exact List.length_pos_of_ne_nil (copied.filled other.id (List.mem_map_of_mem otherMem))
  have close := Page.count_lt_of_tier same filled
  omega

theorem not_mem_chosenEntries (distinct : (store.contents entries).Nodup) {id : PageId}
    (mem : id ∈ store.ids) (kept : id ∉ tieredChoice store.pages) (isEntry : fp ∈ entries id) :
    fp ∉ chosenEntries entries store := by
  rw [mem_chosenEntries]
  rintro ⟨other, chosen, otherEntry⟩
  have otherMem := tieredChoice_sublist store.pages other chosen
  exact kept (eq_of_mem_both distinct otherMem mem otherEntry isEntry ▸ chosen)

/-- What is known of the page of an entry is known of the merged page once it is copied there. -/
theorem Copied.grown_chosen (copied : Copied fp tiered entries store)
    (sound : store.Sound volume entries) (distinct : (store.contents entries).Nodup)
    (isEntry : fp ∈ chosenEntries entries store) {times : Nat}
    (timesEq : times = tiered + (!(sharedTiers store.pages).isEmpty).toNat) :
    5 ^ times ≤ 4 ^ times * (chosenEntries entries store).length := by
  obtain ⟨id, chosen, inOld⟩ := mem_chosenEntries.mp isEntry
  have before := copied.grown id (tieredChoice_sublist store.pages id chosen) inOld
  by_cases shared : sharedTiers store.pages = []
  · obtain rfl : times = tiered := by simp [timesEq, shared]
    exact Nat.le_trans before (Nat.mul_le_mul_left _ (length_le_chosenEntries distinct chosen))
  · have more := quarter_le_chosenEntries copied sound distinct shared chosen
    obtain rfl : times = tiered + 1 := by simp [timesEq, shared]
    calc
      5 ^ (tiered + 1) = 5 ^ tiered * 5 := Nat.pow_succ ..
      _ ≤ 4 ^ tiered * (entries id).length * 5 := Nat.mul_le_mul_right _ before
      _ = 4 ^ tiered * (5 * (entries id).length) := by
        rw [Nat.mul_assoc, Nat.mul_comm 5]
      _ ≤ 4 ^ tiered * (4 * (chosenEntries entries store).length) := Nat.mul_le_mul_left _ more
      _ = 4 ^ (tiered + 1) * (chosenEntries entries store).length := by
        rw [Nat.pow_succ, Nat.mul_assoc]

theorem Copied.merged {copies : Copies} (copied : Copied fp tiered entries store)
    (sound : store.Sound volume entries) (distinct : (store.contents entries).Nodup)
    (merges : Merges maxPages fp entries store copies others last)
    (held : fp ∈ store.contents entries → fp ∈ last.contents others) :
    Copied fp (tiered + copies.tiered) others last := by
  cases merges with
  | rests => exact copied
  | merges many several ids =>
      have sub (id : PageId) (mem : id ∈ store.ids.filter fun id =>
          !(tieredChoice store.pages).contains id) : id ∈ store.ids :=
        (List.mem_filter.mp mem).1
      constructor
      · intro id mem
        rcases sound.cases_assigned sub _ (ids ▸ mem) with ⟨old, same⟩ | same
        · exact same ▸ copied.filled id (sub id old)
        · rw [same]
          obtain ⟨first, chosen⟩ := List.exists_mem_of_length_pos (Nat.lt_of_succ_lt several)
          have some := List.length_pos_of_ne_nil
            (copied.filled first (tieredChoice_sublist store.pages first chosen))
          exact List.ne_nil_of_length_pos
            (Nat.lt_of_lt_of_le some (length_le_chosenEntries distinct chosen))
      · intro id mem isEntry
        rcases sound.cases_assigned sub _ (ids ▸ mem) with ⟨old, same⟩ | same
        · rw [same] at isEntry ⊢
          have kept : id ∉ tieredChoice store.pages := by simpa using (List.mem_filter.mp old).2
          rw [Copies.ofMerge_uncopied (not_mem_chosenEntries distinct (sub id old) kept isEntry)]
          exact copied.grown id (sub id old) isEntry
        · rw [same] at isEntry ⊢
          exact copied.grown_chosen sound distinct isEntry
            (by rw [Copies.ofMerge_tiered isEntry])
      · intro foreign
        have nowhere : fp ∉ store.contents entries := fun mem => foreign (held mem)
        rw [copied.absent nowhere, Copies.ofMerge_uncopied fun isEntry => ?_]
        · rfl
        · obtain ⟨id, chosen, inOld⟩ := mem_chosenEntries.mp isEntry
          exact nowhere (List.mem_flatMap.mpr
            ⟨id, tieredChoice_sublist store.pages id chosen, inOld⟩)

/-- What is known before a round is known after it. -/
theorem Copied.rounded {fps : List Fingerprint} {copies : Copies}
    (copied : Copied fp tiered entries store) (sound : store.Sound volume entries)
    (nonempty : fps ≠ []) (distinct : (store.contents entries ++ fps).Nodup)
    (rounded : Rounded maxPages fp fps entries store copies others last)
    (same : (last.contents others).Perm (store.contents entries ++ fps)) :
    Copied fp (tiered + copies.tiered) others last := by
  obtain ⟨grown, grownVolume, grownSound, ids, merges⟩ := rounded
  have appended := copied.appended sound nonempty distinct ids
  rw [← sound.contents_appended ids] at distinct same
  exact appended.merged grownSound distinct merges same.mem_iff.mpr

theorem Copied.tiered_le (copied : Copied fp tiered entries store) :
    tiered ≤ 4 * (store.contents entries).length.log2 + 3 := by
  by_cases held : fp ∈ store.contents entries
  · obtain ⟨id, mem, isEntry⟩ := List.mem_flatMap.mp held
    exact le_of_quarters (Nat.le_trans (copied.grown id mem isEntry)
      (Nat.mul_le_mul_left _ (length_le_contents mem)))
  · rw [copied.absent held]
    exact Nat.zero_le _

/-- With more pages than classes there is always a class to merge. -/
theorem Merges.no_fallback {copies : Copies} {most : Nat} (sound : store.Sound volume entries)
    (few : (store.contents entries).length ≤ most)
    (merges : Merges maxPages fp entries store copies others last)
    (many : Page.bitLength most / 2 < maxPages) : copies.fallback = 0 := by
  cases merges with
  | rests => rfl
  | merges tooMany =>
      have small : ∀ page ∈ store.pages, page.count ≤ most := by
        intro page mem
        rw [(sound.describes page mem).count]
        exact Nat.le_trans (length_le_contents (List.mem_map_of_mem mem)) few
      have shared := sharedTiers_ne_nil small (Nat.lt_of_le_of_lt many tooMany)
      simp [Copies.ofMerge, shared]

theorem Rounded.no_fallback {fps : List Fingerprint} {copies : Copies} {most : Nat}
    (rounded : Rounded maxPages fp fps entries store copies others last)
    (sound : store.Sound volume entries) (few : (store.contents entries ++ fps).length ≤ most)
    (many : Page.bitLength most / 2 < maxPages) : copies.fallback = 0 := by
  obtain ⟨grown, grownVolume, grownSound, ids, merges⟩ := rounded
  rw [← sound.contents_appended ids] at few
  exact merges.no_fallback grownSound few many

/-- Whatever pages are appended, with the tiered merge behind each of them: the merges of shared
classes copy an entry logarithmically often.  If more pages may be kept than there are classes,
there are no other merges. -/
theorem copies_logarithmic (site : Site) (created : site.create.1.isOk = true) (maxPages : Nat)
    (fp : Fingerprint) (batches : List (List Fingerprint))
    (each : ∀ fps ∈ batches, fps ≠ [] ∧ Ascending fps) (distinct : batches.flatten.Nodup)
    (numbered : 2 * batches.length ≤ UInt64.size) (few : batches.flatten.length < UInt64.size) :
    (site.volume.Quiet → ∃ copies, (rounds maxPages fp batches site.begun.1.store
        site.begun.2).1.1 = .ok copies) ∧
      ∀ copies last after,
        rounds maxPages fp batches site.begun.1.store site.begun.2 =
          ((.ok copies, last), after) →
        last.entries = batches.flatten.length ∧
          copies.all ≤ copies.fallback + (4 * last.entries.log2 + 3) ∧
          (Page.bitLength last.entries / 2 < maxPages →
            copies.all ≤ 4 * (last.entries.log2 + 2)) := by
  obtain ⟨store, before, begun, changes, sound, pages, nextId, -⟩ := Site.begun_new created
  rw [begun]
  have ids : store.ids = [] := by rw [ids, pages, List.map_nil]
  have empty : store.contents (fun _ => []) = [] := by rw [contents, ids, List.flatMap_nil]
  have runs := @rounds_runs before (fun _ => []) store maxPages fp (fun _ => True)
    (fun copies entries store => Copied fp copies.tiered entries store ∧
      (Page.bitLength batches.flatten.length / 2 < maxPages → copies.fallback = 0))
    batches.flatten.length ?step .none batches (changes.sound site.sound) sound ?start
    (fun fps mem => ⟨trivial, each fps mem⟩) (by rw [empty, List.nil_append]; exact distinct)
    (by rw [nextId, Nat.zero_add]; exact Nat.le_trans numbered (by decide))
    (by rw [empty, List.nil_append]) few
  case step =>
    rintro copies more entries others store last volume fps ⟨copied, spared⟩ sound - nonempty
      distinct few rounded same
    refine ⟨copied.rounded sound nonempty distinct rounded same, fun many => ?_⟩
    rw [Copies.add, spared many, rounded.no_fallback sound few many]
  case start =>
    refine ⟨⟨?_, ?_, fun _ => rfl⟩, fun _ => rfl⟩ <;> simp [ids]
  refine ⟨fun quiet => ?_, fun copies last after ended => ?_⟩
  · obtain ⟨copies, last, after, ended, -⟩ := runs.of_quiet (changes.quiet quiet)
    exact ⟨copies, by rw [ended]⟩
  · rcases runs.cases with ⟨_, _, _, same, -, others, lastSound, ⟨copied, spared⟩, held⟩ |
      ⟨_, _, _, same, -⟩
    · obtain ⟨⟨⟩, rfl⟩ := ended.symm.trans same
      rw [Copies.none_add] at copied spared
      rw [empty, List.nil_append] at held
      have counted : last.entries = batches.flatten.length := by
        rw [lastSound.counted, held.length_eq]
      have few := copied.tiered_le
      rw [← lastSound.counted] at few
      refine ⟨counted, ?_, fun many => ?_⟩
      · rw [Copies.all]
        omega
      · rw [Copies.all, spared (counted ▸ many)]
        omega
    · cases ended.symm.trans same

/-- Six pages of one entry: the first one is copied together with the next two, and then together
with those of another merge. -/
theorem copies_logarithmic_twice :
    let site := Site.small
    let batches := [[1], [2], [3], [4], [5], [6]]
    site.create.1.isOk = true ∧ (∀ fps ∈ batches, fps ≠ [] ∧ Ascending fps) ∧
      batches.flatten.Nodup ∧ 2 * batches.length ≤ UInt64.size ∧
      batches.flatten.length < UInt64.size ∧
      ∃ copies last after,
        rounds 2 1 batches site.begun.1.store site.begun.2 = ((.ok copies, last), after) ∧
        copies.tiered = 2 ∧ last.entries = 6 ∧ copies.all ≤ 4 * (Nat.log2 6 + 2) := by
  intro site batches
  have created : site.create.1.isOk = true := by decide +kernel
  have each : ∀ fps ∈ batches, fps ≠ [] ∧ Ascending fps := by simp [batches, Ascending]
  have distinct : batches.flatten.Nodup := by decide
  have numbered : 2 * batches.length ≤ UInt64.size := by decide
  have few : batches.flatten.length < UInt64.size := by decide
  obtain ⟨ends, bounds⟩ := copies_logarithmic site created 2 1 batches each distinct numbered few
  obtain ⟨copies, ok⟩ := ends fun _ _ => rfl
  have twice : ((rounds 2 1 batches site.begun.1.store site.begun.2).1.1.toOption.map (·.tiered)) =
      some 2 := by decide +kernel
  rcases ended : rounds 2 1 batches site.begun.1.store site.begun.2 with ⟨⟨result, last⟩, after⟩
  rw [ended] at ok twice
  obtain rfl : result = .ok copies := ok
  obtain ⟨counted, -, bound⟩ := bounds copies last after ended
  have six : last.entries = 6 := counted
  rw [six] at bound
  exact ⟨created, each, distinct, numbered, few, copies, last, after, rfl, Option.some.inj twice,
    six, bound (by decide)⟩

/-! ## Merges beside a large page -/

/-- While there may be more pages, a round adds one and merges none. -/
theorem round_grows {fps : List Fingerprint} (volumeSound : before.Sound)
    (sound : store.Sound before entries) (nonempty : fps ≠ []) (ascending : Ascending fps)
    (distinct : (store.contents entries ++ fps).Nodup) (room : store.nextId + 1 < numberLimit)
    (few : (store.contents entries ++ fps).length < countLimit)
    (fewPages : store.ids.length < maxPages) :
    Keeping.Runs (round maxPages fp fps) store before (fun _ => True) NoFile
      (fun copies last after => copies = .none ∧
        last.Sound after (assign entries store.nextId fps) ∧
        last.ids = store.ids ++ [store.nextId] ∧ last.nextId ≤ store.nextId + 2)
      fun _ _ => True := by
  apply (round_runs volumeSound sound nonempty ascending distinct room few).mono
  · rintro copies last after - ⟨others, ⟨grown, -, -, ids, merges⟩, lastSound, numbered, -⟩
    cases merges with
    | rests => exact ⟨rfl, lastSound, ids, numbered⟩
    | merges many =>
        rw [pageCount, ← List.length_map (·.id), ← PageStore.ids, ids, List.length_append] at many
        exact absurd many (Nat.not_lt.mpr fewPages)
  · exact fun _ _ _ _ => trivial

/-- Two pages, of which the second one has an entry. -/
def Beside (fp : Fingerprint) (large small : Nat) (entries : PageId → List Fingerprint)
    (store : PageStore) : Prop :=
  ∃ first second, store.ids = [first, second] ∧ (entries first).length = large ∧
    (entries second).length = small ∧ fp ∈ entries second

theorem Beside.length_contents {large small : Nat} (beside : Beside fp large small entries store) :
    (store.contents entries).length = large + small := by
  obtain ⟨first, second, ids, rfl, rfl, -⟩ := beside
  simp [contents, ids]

/-- Of three pages the two behind a large one are merged. -/
theorem Merges.beside {copies : Copies} {first second third : PageId}
    (sound : store.Sound volume entries) (distinct : (store.contents entries).Nodup)
    (ids : store.ids = [first, second, third]) (single : (entries third).length = 1)
    (isEntry : fp ∈ entries second)
    (less : Page.bitLength (entries second).length / 2 < Page.bitLength (entries first).length / 2)
    (merges : Merges 2 fp entries store copies others last) :
    copies.all = 1 ∧
      Beside fp (entries first).length ((entries second).length + 1) others last := by
  have three : store.pages.length = 3 := by
    rw [← List.length_map (·.id), ← PageStore.ids, ids]
    rfl
  obtain ⟨page, other, newest, pages⟩ := List.length_eq_three.mp three
  have each := ids
  rw [PageStore.ids, pages] at each
  obtain ⟨rfl, rfl, rfl⟩ : page.id = first ∧ other.id = second ∧ newest.id = third := by
    simpa using each
  have tier (page : Page) (mem : page ∈ store.pages) :
      page.tier = Page.bitLength (entries page.id).length / 2 := by
    rw [Page.tier, (sound.describes page mem).count]
  have choice : (tieredChoice store.pages).Perm [other.id, newest.id] := by
    rw [pages]
    apply tieredChoice_beside <;>
      rw [tier page (by simp [pages])]
    · rw [tier other (by simp [pages])]
      exact less
    · rw [tier newest (by simp [pages]), single]
      exact Nat.lt_of_le_of_lt (Nat.zero_le _) less
  cases merges with
  | rests few =>
      rw [choice.length_eq, pageCount, three] at few
      simp at few
  | merges many several lastIds =>
      obtain ⟨⟨notOther, notNewest⟩, different⟩ : (page.id ≠ other.id ∧ page.id ≠ newest.id) ∧
          other.id ≠ newest.id := by
        have unique := sound.distinct
        rw [ids] at unique
        simpa using unique
      have kept : (store.ids.filter fun id => !(tieredChoice store.pages).contains id) =
          [page.id] := by
        rw [ids]
        simp [choice.mem_iff, notOther, notNewest]
      have otherChosen : other.id ∈ tieredChoice store.pages := choice.mem_iff.mpr (by simp)
      have newestChosen : newest.id ∈ tieredChoice store.pages := choice.mem_iff.mpr (by simp)
      have copied : fp ∈ chosenEntries entries store :=
        mem_chosenEntries.mpr ⟨other.id, otherChosen, isEntry⟩
      have length : (chosenEntries entries store).length = (entries other.id).length + 1 := by
        apply Nat.le_antisymm
        · apply Nat.le_trans length_chosenEntries_le
          rw [(choice.flatMap_right entries).length_eq]
          simp [single]
        · rw [← single]
          exact add_length_le_chosenEntries distinct different otherChosen newestChosen
      have below : page.id < store.nextId := sound.id_lt (by simp [ids])
      rw [kept] at lastIds
      refine ⟨Copies.ofMerge_all copied, page.id, store.nextId, lastIds, ?_, ?_, ?_⟩
      · rw [assign_ne _ _ (Nat.ne_of_lt below)]
      · rw [assign_self, length]
      · rw [assign_self]
        exact copied

/-- A page more is merged with the second one at once. -/
theorem Beside.rounded {large small : Nat} {fps : List Fingerprint} {copies : Copies}
    (beside : Beside fp large small entries store) (sound : store.Sound volume entries)
    (distinct : (store.contents entries ++ fps).Nodup) (single : fps.length = 1)
    (less : Page.bitLength small / 2 < Page.bitLength large / 2)
    (rounded : Rounded 2 fp fps entries store copies others last) :
    copies.all = 1 ∧ Beside fp large (small + 1) others last := by
  obtain ⟨first, second, ids, rfl, rfl, isEntry⟩ := beside
  obtain ⟨grown, grownVolume, grownSound, grownIds, merges⟩ := rounded
  rw [← @Sound.contents_appended _ _ _ sound _ fps grownIds] at distinct
  rw [ids] at grownIds
  have old (id : PageId) (mem : id ∈ [first, second]) :
      assign entries store.nextId fps id = entries id :=
    assign_ne _ _ (Nat.ne_of_lt (sound.id_lt (ids ▸ mem)))
  rw [← old first (by simp), ← old second (by simp)] at less ⊢
  rw [← old second (by simp)] at isEntry
  exact merges.beside grownSound distinct grownIds (by rw [assign_self, single]) isEntry less

/-- Beside a large page each page of one entry is merged with all those before it. -/
theorem Beside.rounds {large : Nat} {singles : List Fingerprint} (volumeSound : before.Sound)
    (sound : store.Sound before entries) (beside : Beside fp large 1 entries store)
    (distinct : (store.contents entries ++ singles).Nodup)
    (room : store.nextId + 2 * singles.length ≤ numberLimit)
    (few : (store.contents entries ++ singles).length < countLimit)
    (less : Page.bitLength singles.length / 2 < Page.bitLength large / 2) :
    Keeping.Runs (rounds 2 fp (singles.map fun single => [single])) store before (fun _ => True)
      NoFile
      (fun copies last _ => copies.all = singles.length ∧
        last.entries = large + (singles.length + 1))
      fun _ _ => True := by
  have flat : (singles.map fun single => [single]).flatten = singles :=
    List.flatMap_def.symm.trans (List.flatMap_singleton' _)
  have each : ∀ fps ∈ singles.map fun single => [single],
      fps.length = 1 ∧ fps ≠ [] ∧ Ascending fps := by
    simp [Ascending]
  have total : (store.contents entries ++ singles).length = large + (singles.length + 1) := by
    rw [List.length_append, beside.length_contents]
    omega
  have runs := @rounds_runs before entries store 2 fp (·.length = 1)
    (fun copies => Beside fp large (copies.all + 1)) (large + (singles.length + 1)) ?step .none
    (singles.map fun single => [single]) volumeSound sound beside each
    (by rw [flat]; exact distinct) (by rw [List.length_map]; exact room)
    (by rw [flat]; exact total) (total ▸ few)
  case step =>
    intro copies more entries others store last volume fps beside sound single _ distinct few
      rounded _
    rw [List.length_append, beside.length_contents, single] at few
    have smaller : copies.all + 1 ≤ singles.length := by omega
    have shorter : Page.bitLength (copies.all + 1) ≤ Page.bitLength singles.length := by
      rw [Page.bitLength_eq_size, Page.bitLength_eq_size]
      exact Nat.size_le_size smaller
    have lessStill := Nat.lt_of_le_of_lt (Nat.div_le_div_right shorter) less
    obtain ⟨once, still⟩ := beside.rounded sound distinct single lessStill rounded
    rw [Copies.add_all, once]
    exact still
  apply runs.mono
  · rintro copies last after - ⟨others, lastSound, beside, held⟩
    rw [flat] at held
    have length := held.length_eq
    rw [Copies.none_add] at beside
    rw [total, beside.length_contents] at length
    rw [lastSound.counted, beside.length_contents]
    omega
  · exact fun _ _ _ _ => trivial

/-- Once a large page is there. -/
theorem rounds_behind {large : PageId} {singles : List Fingerprint} (volumeSound : before.Sound)
    (sound : store.Sound before entries) (ids : store.ids = [large])
    (distinct : (store.contents entries ++ [fp] ++ singles).Nodup)
    (room : store.nextId + 2 * (singles.length + 1) ≤ numberLimit)
    (few : (store.contents entries ++ [fp] ++ singles).length < countLimit)
    (less : Page.bitLength singles.length / 2 < Page.bitLength (entries large).length / 2) :
    Keeping.Runs (rounds 2 fp ([fp] :: singles.map fun single => [single])) store before
      (fun _ => True) NoFile
      (fun copies last _ => copies.all = singles.length ∧
        last.entries = (entries large).length + (singles.length + 1))
      fun _ _ => True := by
  have part := List.sublist_append_left (store.contents entries ++ [fp]) singles
  have roomHere : store.nextId + 1 < numberLimit := Nat.lt_of_lt_of_le (by omega) room
  apply Keeping.Runs.bind (round_grows volumeSound sound (by simp) (by simp [Ascending])
    (distinct.sublist part) roomHere (Nat.lt_of_le_of_lt part.length_le few)
    (by rw [ids]; exact Nat.lt_succ_self 1))
  rintro _ middle middleVolume changes ⟨rfl, middleSound, middleIds, numbered⟩
  have older : large < store.nextId := sound.id_lt (by simp [ids])
  have beside : Beside fp (entries large).length 1 (assign entries store.nextId [fp]) middle := by
    refine ⟨large, store.nextId, ?_, ?_, ?_, ?_⟩
    · rw [middleIds, ids]
      rfl
    · rw [assign_ne _ _ (Nat.ne_of_lt older)]
    · rw [assign_self, List.length_singleton]
    · rw [assign_self]
      exact List.mem_singleton_self fp
  have roomRest : middle.nextId + 2 * singles.length ≤ numberLimit :=
    Nat.le_trans (Nat.add_le_add_right numbered _) (Nat.le_trans (by omega) room)
  rw [← sound.contents_appended middleIds] at distinct few
  apply Keeping.Runs.bind (beside.rounds (changes.sound volumeSound) middleSound distinct roomRest
    few less)
  rintro copies last after - ends
  apply Keeping.Runs.pure
  rw [Copies.none_add]
  exact ends

/-- A large page first, and then pages of one entry: every merge copies the first of these again. -/
theorem copies_beside {large singles : List Fingerprint} (volumeSound : before.Sound)
    (sound : store.Sound before entries) (empty : store.ids = []) (ascending : Ascending large)
    (distinct : (large ++ [fp] ++ singles).Nodup)
    (room : store.nextId + 2 * (singles.length + 2) ≤ numberLimit)
    (few : (large ++ [fp] ++ singles).length < countLimit)
    (less : Page.bitLength singles.length / 2 < Page.bitLength large.length / 2) :
    Keeping.Runs (rounds 2 fp (large :: [fp] :: singles.map fun single => [single])) store before
      (fun _ => True) NoFile
      (fun copies last _ => copies.all = singles.length ∧
        last.entries = large.length + (singles.length + 1))
      fun _ _ => True := by
  have nothing : store.contents entries = [] := by rw [contents, empty, List.flatMap_nil]
  have nonempty : large ≠ [] := by
    rintro rfl
    exact absurd less (Nat.not_lt.mpr (Nat.zero_le _))
  have part : (store.contents entries ++ large).Sublist (large ++ [fp] ++ singles) := by
    rw [nothing, List.append_assoc]
    exact List.sublist_append_left _ _
  have roomHere : store.nextId + 1 < numberLimit := Nat.lt_of_lt_of_le (by omega) room
  apply Keeping.Runs.bind (round_grows volumeSound sound nonempty ascending
    (distinct.sublist part) roomHere (Nat.lt_of_le_of_lt part.length_le few)
    (by rw [empty]; exact Nat.zero_lt_two))
  rintro _ middle middleVolume changes ⟨rfl, middleSound, ids, numbered⟩
  have held := @Sound.contents_appended _ _ _ sound _ large ids
  rw [nothing, List.nil_append] at held
  rw [empty, List.nil_append] at ids
  have roomRest : middle.nextId + 2 * (singles.length + 1) ≤ numberLimit :=
    Nat.le_trans (Nat.add_le_add_right numbered _) (Nat.le_trans (by omega) room)
  have rest := rounds_behind (changes.sound volumeSound) middleSound ids
    (by rw [held]; exact distinct) roomRest (by rw [held]; exact few)
    (by rw [assign_self]; exact less)
  rw [assign_self] at rest
  apply Keeping.Runs.bind rest
  rintro copies last after - ends
  apply Keeping.Runs.pure
  rw [Copies.none_add]
  exact ends

end

/-- A page of 128 entries and 42 pages of one entry, the first of which is copied 41 times.  All
this makes fewer than 256 entries. -/
theorem copies_beyond :
    let site := Site.small
    let large := (List.range 128).map fun number => (1000 + number).toUInt64
    let singles := (List.range 41).map fun number => (1 + number).toUInt64
    let batches := large :: [0] :: singles.map fun single => [single]
    site.volume.Quiet ∧ site.create.1.isOk = true ∧
      (∀ fps ∈ batches, fps ≠ [] ∧ Ascending fps) ∧ batches.flatten.Nodup ∧
      ∃ copies last after,
        rounds 2 0 batches site.begun.1.store site.begun.2 = ((.ok copies, last), after) ∧
        last.entries < 2 ^ 8 ∧ 4 * (8 + 2) < copies.all := by
  intro site large singles batches
  have quiet : site.volume.Quiet := fun _ _ => rfl
  have created : site.create.1.isOk = true := by decide +kernel
  have ascending : Ascending large := by
    rw [Ascending]
    decide +kernel
  have distinct : (large ++ [0] ++ singles).Nodup := by decide +kernel
  have flat : batches.flatten = large ++ [0] ++ singles := by
    rw [List.append_assoc, ← List.flatMap_singleton' singles, List.flatMap_def]
    rfl
  refine ⟨quiet, created, ?_, flat ▸ distinct, ?_⟩
  · rw [List.forall_mem_cons, List.forall_mem_cons]
    exact ⟨⟨by simp [large], ascending⟩, by simp [Ascending], by simp [Ascending]⟩
  · obtain ⟨store, before, begun, changes, sound, pages, nextId, -⟩ := Site.begun_new created
    rw [begun]
    have runs := @copies_beside before _ store 0 large singles (changes.sound site.sound) sound
      (by rw [ids, pages, List.map_nil]) ascending distinct (by rw [nextId]; decide +kernel)
      (by decide +kernel) (by decide +kernel)
    obtain ⟨copies, last, after, ended, -, all, entries⟩ := runs.of_quiet (changes.quiet quiet)
    refine ⟨copies, last, after, ended, ?_, ?_⟩
    · rw [entries]
      decide +kernel
    · rw [all]
      decide +kernel

end PageStore

end FingerprintSet
