import FingerprintSet.Proofs.BucketTable
import FingerprintSet.Proofs.PageStore.Compaction
import FingerprintSet.Proofs.Storage.Trees
import FingerprintSet.Segment.Basic

/-!
# Where the fingerprints of a segment are

A fingerprint is in its bucket, pending or in a page, and in one of these places only.  Each
step moves fingerprints from place to place: a full bucket gives some up, a flush writes what
is pending, a merge writes pages anew.  Only a put that answers no adds one to them all.
-/

namespace FingerprintSet

open Storage Volume SortedFile

/-- Buckets, and for each fingerprint the one it goes into. -/
structure Homes where
  buckets : Nat
  home : Fingerprint → Nat
  inside : ∀ fp, home fp < buckets

namespace Segment

/-- All fingerprints of a segment, place by place. -/
def all (entries : PageId → List Fingerprint) (segment : Segment) : List Fingerprint :=
  segment.table.toList ++ segment.pending.toList ++ segment.store.contents entries

/-- Every fingerprint is in one place, in its own bucket if in any, the size counts all, and
those that no bucket holds have been evicted. -/
structure Sound (homes : Homes) (volume : Volume) (entries : PageId → List Fingerprint)
    (segment : Segment) : Prop where
  table : segment.table.Shaped homes.buckets
  homed : ∀ bucket, ∀ fp ∈ segment.table.bucket bucket, homes.home fp = bucket
  store : segment.store.Sound volume entries
  distinct : (segment.all entries).Nodup
  counted : segment.size = (segment.all entries).length
  evicted : segment.evictions = segment.pending.size + segment.store.entries
  stocked : segment.table.toList = [] → segment.all entries = []

variable {homes : Homes} {before : Volume} {entries : PageId → List Fingerprint}
  {segment : Segment} {fp : Fingerprint}

theorem mem_pending_iff {pending : Std.TreeSet Fingerprint} :
    pending.contains fp = true ↔ fp ∈ pending.toList := by
  rw [Std.TreeSet.mem_toList, Std.TreeSet.mem_iff_contains]

theorem Sound.inMemory_iff (sound : segment.Sound homes before entries) :
    segment.inMemory (homes.home fp) fp = true ↔
      fp ∈ segment.table.toList ++ segment.pending.toList := by
  rw [inMemory, Bool.or_eq_true, mem_pending_iff, List.mem_append,
    BucketTable.contains_iff homes.home sound.table sound.homed (homes.inside fp)]

/-- What is in the pages is never everything there is: some fingerprint is in a bucket. -/
theorem Sound.contents_lt (sound : segment.Sound homes before entries) :
    (segment.store.contents entries).length < countLimit := by
  cases tableEq : segment.table.toList with
  | nil =>
      have none := sound.stocked tableEq
      rw [all, List.append_eq_nil_iff] at none
      rw [none.2]
      decide
  | cons first rest =>
      have most := length_le_size sound.distinct
      rw [all, tableEq, List.length_append, List.length_append, List.length_cons] at most
      rw [countLimit]
      omega

theorem Sound.few (sound : segment.Sound homes before entries) :
    ∀ id ∈ segment.store.ids, (entries id).length < countLimit := fun _ mem =>
  Nat.lt_of_le_of_lt (PageStore.length_le_contents mem) sound.contents_lt

/-- Where the store's part is sound, so is the segment around it. -/
theorem Sound.restored {others : PageId → List Fingerprint} {after : Volume} {store : PageStore}
    (sound : segment.Sound homes before entries) (storeSound : store.Sound after others)
    (same : (store.contents others).Perm (segment.store.contents entries)) :
    Sound homes after others { segment with store } := by
  have allPerm : (all others { segment with store }).Perm (segment.all entries) :=
    same.append_left _
  exact
    { table := sound.table
      homed := sound.homed
      store := storeSound
      distinct := allPerm.nodup_iff.mpr sound.distinct
      counted := by
        rw [allPerm.length_eq]
        exact sound.counted
      evicted := by
        rw [storeSound.counted, same.length_eq, ← sound.store.counted]
        exact sound.evicted
      stocked := fun none => by
        have empty := sound.stocked none
        rw [empty] at allPerm
        exact allPerm.eq_nil }

/-- The number of readers has no part in where fingerprints are. -/
theorem Sound.withReaders (sound : segment.Sound homes before entries) (readers : Nat) :
    Sound homes before entries { segment with activeReaders := readers } where
  table := sound.table
  homed := sound.homed
  store := sound.store
  distinct := sound.distinct
  counted := sound.counted
  evicted := sound.evicted
  stocked := sound.stocked

/-! ## Taking in a fingerprint -/

theorem mem_foldl_insert (evicted : List Fingerprint) (pending : Std.TreeSet Fingerprint) :
    fp ∈ (evicted.foldl (fun pending old => pending.insert old) pending).toList ↔
      fp ∈ evicted ++ pending.toList := by
  induction evicted generalizing pending with
  | nil => rfl
  | cons old evicted ih =>
      rw [List.foldl_cons, ih, List.mem_append, List.cons_append, List.mem_cons, List.mem_append,
        Std.TreeSet.mem_toList, Std.TreeSet.mem_insert, Std.TreeSet.mem_toList,
        Std.compare_eq_iff_eq]
      constructor
      · rintro (mem | rfl | mem)
        · exact Or.inr (Or.inl mem)
        · exact Or.inl rfl
        · exact Or.inr (Or.inr mem)
      · rintro (rfl | mem | mem)
        · exact Or.inr (Or.inl rfl)
        · exact Or.inl mem
        · exact Or.inr (Or.inr mem)

theorem absorb_pending (segment : Segment) (bucket : Nat) (fp : Fingerprint) :
    (segment.absorb bucket fp).pending =
      (segment.table.evicted bucket).foldl (fun pending old => pending.insert old)
        segment.pending :=
  rfl

/-- What a bucket gives up joins what is pending. -/
theorem Sound.absorb_pending_perm (sound : segment.Sound homes before entries) :
    (segment.absorb (homes.home fp) fp).pending.toList.Perm
      (segment.table.evicted (homes.home fp) ++ segment.pending.toList) := by
  have evictedSub : (segment.table.evicted (homes.home fp)).Sublist segment.table.toList := by
    have inside := List.mem_range.mpr (sound.table.occupancy ▸ homes.inside fp)
    exact (List.take_sublist _ _).trans
      (List.sublist_flatten_of_mem (List.mem_map_of_mem inside))
  have apart : (segment.table.evicted (homes.home fp) ++ segment.pending.toList).Nodup :=
    (sound.distinct.sublist (List.sublist_append_left _ _)).sublist (evictedSub.append_right _)
  apply (List.perm_ext_iff_of_nodup (ascending_toList _).nodup apart).mpr
  intro other
  rw [absorb_pending, mem_foldl_insert]

/-- With a new fingerprint a segment holds just that one more. -/
theorem Sound.absorb_perm (sound : segment.Sound homes before entries) :
    ((segment.absorb (homes.home fp) fp).all entries).Perm (fp :: segment.all entries) := by
  have taken := @BucketTable.insert_toList _ _ _ fp sound.table (homes.inside fp)
  have waiting := @Sound.absorb_pending_perm _ _ _ _ fp sound
  have table : (segment.absorb (homes.home fp) fp).table =
      segment.table.insert (homes.home fp) fp := rfl
  have store : (segment.absorb (homes.home fp) fp).store = segment.store := rfl
  rw [all, all, table, store]
  apply List.perm_iff_count.mpr
  intro other
  have takenCount := taken.count_eq other
  have waitingCount := waiting.count_eq other
  simp only [List.count_append, List.count_cons] at takenCount waitingCount ⊢
  omega

theorem Sound.absorb (sound : segment.Sound homes before entries)
    (new : fp ∉ segment.all entries) :
    (segment.absorb (homes.home fp) fp).Sound homes before entries where
  table := BucketTable.insert_shaped sound.table (homes.inside fp)
  homed bucket other mem := by
    have table : (segment.absorb (homes.home fp) fp).table =
        segment.table.insert (homes.home fp) fp := rfl
    rw [table] at mem
    by_cases same : bucket = homes.home fp
    · rw [same, BucketTable.insert_bucket_self sound.table (homes.inside fp)] at mem
      rw [same]
      rcases List.mem_append.mp mem with old | here
      · exact sound.homed _ _ (List.mem_of_mem_drop old)
      · rw [List.mem_singleton.mp here]
    · rw [BucketTable.insert_bucket_ne sound.table (homes.inside fp) same] at mem
      exact sound.homed bucket other mem
  store := sound.store
  distinct := sound.absorb_perm.nodup_iff.mpr (List.nodup_cons.mpr ⟨new, sound.distinct⟩)
  counted := by
    have size : (segment.absorb (homes.home fp) fp).size = segment.size + 1 := rfl
    rw [sound.absorb_perm.length_eq, size, sound.counted, List.length_cons]
  evicted := by
    have evictions : (segment.absorb (homes.home fp) fp).evictions =
        segment.evictions + (segment.table.evicted (homes.home fp)).length := rfl
    have store : (segment.absorb (homes.home fp) fp).store = segment.store := rfl
    have waiting := (@Sound.absorb_pending_perm _ _ _ _ fp sound).length_eq
    rw [List.length_append, Std.TreeSet.length_toList, Std.TreeSet.length_toList] at waiting
    rw [evictions, store, waiting, sound.evicted]
    omega
  stocked none := by
    have mem := @BucketTable.mem_insert_toList _ _ _ fp sound.table (homes.inside fp)
    have table : (segment.absorb (homes.home fp) fp).table.toList =
        (segment.table.insert (homes.home fp) fp).toList := rfl
    rw [← table, none] at mem
    contradiction

/-! ## What a step leaves -/

/-- After a step a segment holds what it held and what it gained. -/
structure Moves (homes : Homes) (after : Volume) (entries : PageId → List Fingerprint)
    (segment : Segment) (gained : List Fingerprint) (others : PageId → List Fingerprint)
    (last : Segment) : Prop where
  sound : last.Sound homes after others
  grows : segment.store.Extends entries others last.store
  holds : (last.all others).Perm (gained ++ segment.all entries)

theorem Moves.trans {middle final : Volume} {gained more : List Fingerprint}
    {others another : PageId → List Fingerprint} {between last : Segment}
    (first : Moves homes middle entries segment gained others between)
    (second : Moves homes final others between more another last) :
    Moves homes final entries segment (more ++ gained) another last where
  sound := second.sound
  grows := first.grows.trans second.grows
  holds := by
    rw [List.append_assoc]
    exact second.holds.trans (first.holds.append_left more)

/-- Where the store's part is sound and keeps its entries no fingerprint moves, however many
read. -/
theorem Sound.restored_moves {others : PageId → List Fingerprint} {after : Volume}
    {store : PageStore} (sound : segment.Sound homes before entries)
    (storeSound : store.Sound after others)
    (grows : segment.store.Extends entries others store)
    (same : (store.contents others).Perm (segment.store.contents entries)) (readers : Nat) :
    Moves homes after entries segment [] others
      { segment with store, activeReaders := readers } where
  sound := (sound.restored storeSound same).withReaders readers
  grows := grows
  holds := same.append_left _

/-- Where nothing happens to the store's files no fingerprint moves. -/
theorem Sound.stays {after : Volume} (sound : segment.Sound homes before entries)
    (volumeSound : before.Sound) (changes : Changes Nowhere NoFile before after) (readers : Nat) :
    Moves homes after entries segment [] entries { segment with activeReaders := readers } :=
  sound.restored_moves (sound.store.of_nothing volumeSound changes) (.refl _ _)
    (List.Perm.refl _) readers

theorem onStore_runs {α : Type} {work : Keeping PageStore α} {paths : Path → Prop}
    {files : FileId → Prop} {good : α → PageStore → Volume → Prop} {bad : PageStore → Volume → Prop}
    (runs : Keeping.Runs work segment.store before paths files good bad) :
    Keeping.Runs (onStore work) segment before paths files
      (fun a last after => last = { segment with store := last.store } ∧ good a last.store after)
      fun last after => last = { segment with store := last.store } ∧ bad last.store after := by
  apply (Keeping.Runs.onPart runs).mono
  · rintro a _ after _ ⟨store, rfl, holds⟩
    exact ⟨rfl, holds⟩
  · rintro _ after _ ⟨store, rfl, holds⟩
    exact ⟨rfl, holds⟩

/-! ## Looking -/

/-- Whether a segment holds a fingerprint is what its membership test says. -/
theorem contains_runs (volumeSound : before.Sound) (sound : segment.Sound homes before entries)
    (fp : Fingerprint) :
    Keeping.Runs (contains (homes.home fp) fp) segment before Nowhere NoFile
      (fun answer last after => Moves homes after entries segment [] entries last ∧
        last = { segment with store := last.store } ∧
        segment.store.SameButHandles last.store ∧ (answer = true ↔ fp ∈ segment.all entries))
      fun last after => Moves homes after entries segment [] entries last ∧
        last = { segment with store := last.store } ∧
        segment.store.SameButHandles last.store := by
  have moves (last : Segment) (after : Volume) (kept : last = { segment with store := last.store })
      (storeSound : last.store.Sound after entries)
      (same : segment.store.SameButHandles last.store) :
      Moves homes after entries segment [] entries last := by
    rw [kept]
    exact sound.restored_moves storeSound (same.extends entries) (by rw [same.contents]) _
  rw [contains]
  apply Keeping.Runs.getThen
  split
  · rename_i here
    apply Keeping.Runs.pure
    refine ⟨moves segment before rfl sound.store rfl, rfl, rfl, iff_of_true rfl ?_⟩
    exact List.mem_append_left _ (sound.inMemory_iff.mp here)
  · rename_i elsewhere
    rw [sound.inMemory_iff] at elsewhere
    apply (onStore_runs (PageStore.probe_runs volumeSound sound.store fp)).mono
    · rintro answer last after _ ⟨kept, storeSound, same, decides⟩
      refine ⟨moves last after kept storeSound same, kept, same, ?_⟩
      rw [decides, all, List.mem_append, or_iff_right elsewhere]
    · rintro last after _ ⟨kept, storeSound, same⟩
      exact ⟨moves last after kept storeSound same, kept, same⟩

/-! ## Flushing -/

/-- While nothing fails, page numbers are given out for pages with entries and for merges under
way only. -/
def Room (entries : PageId → List Fingerprint) (jobs : Nat) (segment : Segment) : Prop :=
  segment.store.nextId + segment.store.ids.length ≤
    2 * (segment.store.contents entries).length + jobs

theorem Room.looked {jobs : Nat} {last : Segment} (room : segment.Room entries jobs)
    (same : segment.store.SameButHandles last.store) : last.Room entries jobs := by
  rw [Room, same.nextId, same.ids, same.contents]
  exact room

theorem Sound.room (sound : segment.Sound homes before entries) {jobs : Nat}
    (room : segment.Room entries jobs) (few : jobs ≤ 2) :
    segment.store.nextId + 1 < numberLimit := by
  have less := sound.contents_lt
  rw [countLimit] at less
  have limit : 2 * UInt64.size + 4 < numberLimit := by decide
  dsimp only [Room, PageId] at room ⊢
  omega

/-- What is known of a merge that was left to run. -/
def Offers (segment last : Segment) (after : Volume) (others : PageId → List Fingerprint) :
    Option CompactionJob → Prop
  | none => last.activeReaders = segment.activeReaders
  | some job => segment.activeReaders = 0 ∧ last.activeReaders = 1 ∧
      job.Prepared after (IsPage after) others last.store ∧
      (∀ id ∈ job.replaced, id ∈ last.store.ids) ∧ 2 ≤ job.replaced.length

/-- How many merges are under way once one may have been prepared. -/
def pendingJobs (job : Option CompactionJob) : Nat :=
  if job.isSome then 1 else 0

/-- A merge of pages that the store has prepared is left to run once its readers are counted,
and nothing moves. -/
theorem Sound.offers {after : Volume} {store : PageStore} {job : CompactionJob}
    {replaced : List PageId} (sound : segment.Sound homes before entries)
    (volumeSound : before.Sound) (changes : Changes Nowhere NoFile before after)
    (live : ∀ id ∈ replaced, id ∈ segment.store.ids) (idle : segment.activeReaders = 0)
    (offered : PageStore.Offered before after entries segment.store store replaced (some job)) :
    ∃ others,
      Moves homes after entries segment [] others { segment with store, activeReaders := 1 } ∧
      Offers segment { segment with store, activeReaders := 1 } after others (some job) ∧
      ∀ jobs, segment.Room entries jobs →
        Room others (jobs + 1) { segment with store, activeReaders := 1 } := by
  obtain ⟨rfl, rfl, several, -, prepared⟩ := offered
  have contents := sound.store.contents_merging job.replaced
  have fromPages := prepared.mono fun id behind =>
    (sound.store.isPage volumeSound behind).of_changes changes fun none => none
  refine ⟨_, ?_, ⟨idle, rfl, fromPages, live, several⟩, fun jobs room => ?_⟩
  · apply sound.restored_moves (sound.store.merging volumeSound changes job.replaced)
    · exact PageStore.extends_allocated fun _ => PageStore.mergedEntries_of_lt _ _
    · rw [contents]
  · rw [Room] at room ⊢
    rw [contents]
    show segment.store.nextId + 1 + segment.store.ids.length ≤ _ + (jobs + 1)
    dsimp only [PageId] at room ⊢
    omega

/-- Preparing a merge moves nothing. -/
theorem prepare_runs {work : Keeping PageStore (Option CompactionJob)} {replaced : List PageId}
    (volumeSound : before.Sound) (sound : segment.Sound homes before entries)
    (live : ∀ id ∈ replaced, id ∈ segment.store.ids) (idle : segment.activeReaders = 0)
    (prepares : Keeping.Runs work segment.store before Nowhere NoFile
      (fun job last after => job = none ∧ last = segment.store ∨
        PageStore.Offered before after entries segment.store last replaced job)
      fun last _ => last = segment.store) :
    Keeping.Runs (do
      let job ← onStore work
      registerJob job
      pure job) segment before Nowhere NoFile
      (fun job last after => ∃ others, Moves homes after entries segment [] others last ∧
        Offers segment last after others job ∧
        ∀ jobs, segment.Room entries jobs → last.Room others (jobs + pendingJobs job))
      fun last after => Moves homes after entries segment [] entries last ∧
        last.activeReaders = segment.activeReaders := by
  have stays {after : Volume} (changes : Changes Nowhere NoFile before after) :
      Moves homes after entries segment [] entries segment :=
    sound.stays volumeSound changes segment.activeReaders
  have stored := onStore_runs prepares
  apply Keeping.Runs.bind (stored.mono (fun _ _ _ _ holds => holds) _)
  · rintro job middle after changes ⟨kept, same | offered⟩
    · obtain ⟨rfl, same⟩ := same
      obtain rfl : middle = segment := by rw [kept, same]
      exact Keeping.Runs.pure ⟨entries, stays changes, rfl, fun _ room => room⟩
    · cases job with
      | none =>
          obtain rfl : middle = segment := by rw [kept, offered.1]
          exact Keeping.Runs.pure ⟨entries, stays changes, rfl, fun _ room => room⟩
      | some job =>
          apply Keeping.Runs.modifyThen
          apply Keeping.Runs.pure
          have added : middle.addReader =
              { segment with store := middle.store, activeReaders := 1 } := by
            rw [addReader, kept, idle]
          rw [added]
          exact sound.offers volumeSound changes live idle offered
  · rintro last after changes ⟨kept, same⟩
    obtain rfl : last = segment := by rw [kept, same]
    exact ⟨stays changes, rfl⟩

/-- Once the pending fingerprints are in a page, or if there are none, they need not wait. -/
theorem Sound.written {others : PageId → List Fingerprint} {after : Volume} {store : PageStore}
    (sound : segment.Sound homes before entries) (storeSound : store.Sound after others)
    (grows : segment.store.Extends entries others store)
    (contents : (store.contents others).Perm
      (segment.pending.toList ++ segment.store.contents entries)) :
    Moves homes after entries segment [] others { segment with store, pending := ∅ } := by
  have allPerm : (all others { segment with store, pending := ∅ }).Perm (segment.all entries) := by
    have none : (∅ : Std.TreeSet Fingerprint).toList = [] := rfl
    rw [all, all, none, List.append_nil, List.append_assoc]
    exact contents.append_left _
  refine ⟨?_, grows, allPerm⟩
  exact
    { table := sound.table
      homed := sound.homed
      store := storeSound
      distinct := allPerm.nodup_iff.mpr sound.distinct
      counted := by
        rw [allPerm.length_eq]
        exact sound.counted
      evicted := by
        have waited := contents.length_eq
        rw [List.length_append, Std.TreeSet.length_toList, ← storeSound.counted,
          ← sound.store.counted, ← sound.evicted] at waited
        show segment.evictions = 0 + store.entries
        rw [waited, Nat.zero_add]
      stocked := fun none => by
        have empty := sound.stocked none
        rw [empty] at allPerm
        exact allPerm.eq_nil }

theorem appendPending_runs (volumeSound : before.Sound)
    (sound : segment.Sound homes before entries)
    (room : segment.store.nextId < numberLimit) :
    Keeping.Runs (onStore (PageStore.append segment.pending.toList)) segment before
      (At (segment.store.pagePath segment.store.nextId)) NoFile
      (fun _ last after => last = { segment with store := last.store } ∧
        ∃ others, Moves homes after entries segment [] others { last with pending := ∅ } ∧
          ∀ jobs, segment.Room entries jobs → Room others jobs { last with pending := ∅ })
      fun last after => Moves homes after entries segment [] entries last ∧
        last.activeReaders = segment.activeReaders := by
  by_cases empty : segment.pending.toList = []
  · have nothing : PageStore.append segment.pending.toList = pure () := by
      rw [PageStore.append, if_pos (List.isEmpty_iff.mpr empty)]
    have stays : Keeping.Runs (PageStore.append segment.pending.toList) segment.store before
        Nowhere NoFile (fun _ last _ => last = segment.store) fun _ _ => False := by
      rw [nothing]
      exact Keeping.Runs.pure rfl
    apply Keeping.Runs.ofNothing
    apply (onStore_runs stays).mono
    · rintro _ last after changes ⟨kept, same⟩
      refine ⟨kept, entries, ?_, ?_⟩
      · rw [kept, same]
        apply sound.written (sound.store.of_nothing volumeSound changes) (.refl _ _)
        rw [empty]
        exact List.Perm.refl _
      · rw [kept, same]
        exact fun jobs fits => fits
    · exact fun _ _ _ fails => fails.2.elim
  · have appended := PageStore.append_runs volumeSound sound.store empty
      (ascending_toList _) room
    apply (onStore_runs appended).mono
    · rintro _ last after _ ⟨kept, storeSound, ids, nextId, directory, limits⟩
      have contents := @PageStore.Sound.contents_appended before entries segment.store sound.store
        last.store segment.pending.toList ids
      refine ⟨kept, PageStore.assign entries segment.store.nextId segment.pending.toList, ?_, ?_⟩
      · rw [kept]
        apply sound.written storeSound (PageStore.extends_appended ids nextId directory limits)
        rw [contents]
        exact List.perm_append_comm
      · intro jobs fits
        have some := List.length_pos_iff.mpr empty
        dsimp only [Room, PageId] at fits ⊢
        rw [contents, ids, nextId, List.length_append, List.length_append, List.length_singleton]
        dsimp only [PageId]
        omega
    · rintro last after changes ⟨kept, storeSound, allocated⟩
      refine ⟨?_, by rw [kept]⟩
      rw [kept]
      apply sound.restored_moves storeSound
      · rw [allocated]
        exact PageStore.extends_allocated fun _ _ => rfl
      · rw [allocated]
        exact List.Perm.refl _

/-- Flushing moves what is pending into a page and may leave a merge to run. -/
theorem flushPending_runs (volumeSound : before.Sound)
    (sound : segment.Sound homes before entries)
    (room : segment.store.nextId < numberLimit) :
    Keeping.Runs flushPending segment before
      (At (segment.store.pagePath segment.store.nextId)) NoFile
      (fun job last after => ∃ others, Moves homes after entries segment [] others last ∧
        Offers segment last after others job ∧
        ∀ jobs, segment.Room entries jobs → last.Room others (jobs + pendingJobs job))
      fun last after => ∃ others, Moves homes after entries segment [] others last ∧
        last.activeReaders = segment.activeReaders := by
  apply Keeping.Runs.getThen
  apply Keeping.Runs.bind ((appendPending_runs volumeSound sound room).mono
    (fun _ _ _ _ holds => holds) fun _ _ _ failed => ⟨_, failed⟩)
  rintro _ written middle changes ⟨kept, others, moves, fits⟩
  have middleSound := changes.sound volumeSound
  have readers : written.activeReaders = segment.activeReaders := by rw [kept]
  apply Keeping.Runs.modifyThen
  apply Keeping.Runs.getThen
  split
  · apply Keeping.Runs.pure
    exact ⟨others, moves, readers, fits⟩
  · rename_i idle
    apply Keeping.Runs.getThen
    have none : segment.activeReaders = 0 := by
      rw [← readers]
      exact Nat.eq_zero_of_not_pos idle
    have prepares := (PageStore.tieredCompactionJob_runs middleSound moves.sound.store
      moves.sound.few written.maxPages).mono
      (fun _ _ _ _ offers => offers.imp And.right And.right) fun _ _ _ same => same
    have prepared := prepare_runs middleSound moves.sound
      (PageStore.tieredChoice_sublist written.store.pages) (readers.trans none) prepares
    apply prepared.ofNothing.mono
    · rintro job last after _ ⟨another, more, offers, fitsStill⟩
      refine ⟨another, moves.trans more, ?_, fun jobs enough => fitsStill jobs (fits jobs enough)⟩
      cases job with
      | none => exact offers.trans readers
      | some job => exact ⟨none, offers.2⟩
    · rintro last after _ ⟨more, same⟩
      exact ⟨_, moves.trans more, same.trans readers⟩

/-! ## Putting -/

/-- What a put does with a fingerprint that it has not found. -/
def takeIn (bucket : Nat) (fp : Fingerprint) : Keeping Segment PutStep := do
  modify (·.absorb bucket fp)
  if (← get).isPendingFull then
    return .added (← flushPending)
  else
    pure (.added none)

theorem beginPut_eq (bucket : Nat) (fp : Fingerprint) :
    beginPut bucket fp = (do
      if ← contains bucket fp then pure .known else takeIn bucket fp) :=
  rfl

/-- A fingerprint that is not there is taken in, even if writing the page fails. -/
theorem takeIn_runs (volumeSound : before.Sound) (sound : segment.Sound homes before entries)
    (room : segment.store.nextId < numberLimit) (new : fp ∉ segment.all entries) :
    Keeping.Runs (takeIn (homes.home fp) fp) segment before
      (At (segment.store.pagePath segment.store.nextId)) NoFile
      (fun step last after => ∃ job others, step = .added job ∧
        Moves homes after entries segment [fp] others last ∧ Offers segment last after others job ∧
          ∀ jobs, segment.Room entries jobs → last.Room others (jobs + pendingJobs job))
      fun last after => ∃ others, Moves homes after entries segment [fp] others last ∧
        last.activeReaders = segment.activeReaders := by
  have taken : Moves homes before entries segment [fp] entries
      (segment.absorb (homes.home fp) fp) :=
    ⟨sound.absorb new, .refl _ _, sound.absorb_perm⟩
  apply Keeping.Runs.modifyThen
  apply Keeping.Runs.getThen
  split
  · have flushes := flushPending_runs volumeSound taken.sound room
    apply Keeping.Runs.bind (flushes.mono (fun _ _ _ _ holds => holds) _)
    · rintro job last after _ ⟨others, more, offers, fits⟩
      exact Keeping.Runs.pure ⟨job, others, rfl, taken.trans more, by cases job <;> exact offers, fits⟩
    · exact fun last after _ ⟨others, more, readers⟩ => ⟨others, taken.trans more, readers⟩
  · exact Keeping.Runs.pure ⟨none, entries, rfl, taken, rfl, fun _ enough => enough⟩

/-- What the step of a put leaves. -/
def PutLeaves (homes : Homes) (after : Volume) (entries : PageId → List Fingerprint)
    (segment : Segment) (fp : Fingerprint) (last : Segment) : PutStep → Prop
  | .known => fp ∈ segment.all entries ∧ Moves homes after entries segment [] entries last ∧
      last = { segment with store := last.store } ∧
        segment.store.SameButHandles last.store
  | .added job => fp ∉ segment.all entries ∧ ∃ others,
      Moves homes after entries segment [fp] others last ∧ Offers segment last after others job ∧
        ∀ jobs, segment.Room entries jobs → last.Room others (jobs + pendingJobs job)

/-- The step of a put finds the fingerprint or takes it in. -/
theorem beginPut_runs (volumeSound : before.Sound) (sound : segment.Sound homes before entries)
    (room : segment.store.nextId < numberLimit) (fp : Fingerprint) :
    Keeping.Runs (beginPut (homes.home fp) fp) segment before
      (At (segment.store.pagePath segment.store.nextId)) NoFile
      (fun step last after => PutLeaves homes after entries segment fp last step)
      fun last after => ∃ others gained, (gained = [] ∨ gained = [fp] ∧ fp ∉ segment.all entries) ∧
        Moves homes after entries segment gained others last ∧
        last.activeReaders = segment.activeReaders := by
  have looks := contains_runs volumeSound sound fp
  rw [beginPut_eq]
  apply Keeping.Runs.bind (looks.ofNothing.mono (fun _ _ _ _ holds => holds) _)
  · rintro answer looked middle changes ⟨moves, kept, same, decides⟩
    cases answer with
    | true => exact Keeping.Runs.pure ⟨decides.mp rfl, moves, kept, same⟩
    | false =>
        have new : fp ∉ segment.all entries := fun mem => Bool.false_ne_true (decides.mpr mem)
        have newStill : fp ∉ looked.all entries := fun mem => new (moves.holds.mem_iff.mp mem)
        have readers : looked.activeReaders = segment.activeReaders := by rw [kept]
        have takes := takeIn_runs (changes.sound volumeSound) moves.sound (same.nextId ▸ room)
          newStill
        rw [same.nextId, same.pagePath] at takes
        rw [if_neg Bool.false_ne_true]
        apply takes.mono
        · rintro _ last after _ ⟨job, others, rfl, more, offers, fits⟩
          refine ⟨new, others, moves.trans more, ?_, fun jobs enough => fits jobs (enough.looked same)⟩
          cases job with
          | none => exact offers.trans readers
          | some job => exact ⟨readers ▸ offers.1, offers.2⟩
        · rintro last after _ ⟨others, more, still⟩
          exact ⟨others, [fp], Or.inr ⟨rfl, new⟩, moves.trans more, still.trans readers⟩
  · rintro last after _ ⟨moves, kept, -⟩
    exact ⟨entries, [], Or.inl rfl, moves, by rw [kept]⟩

/-! ## Settling -/

/-- After some steps a segment holds what it held and what it gained, whatever its pages. -/
structure Becomes (homes : Homes) (after : Volume) (entries : PageId → List Fingerprint)
    (segment : Segment) (gained : List Fingerprint) (others : PageId → List Fingerprint)
    (last : Segment) : Prop where
  sound : last.Sound homes after others
  holds : (last.all others).Perm (gained ++ segment.all entries)
  nextId_le : segment.store.nextId ≤ last.store.nextId
  directory : last.store.directory = segment.store.directory
  limits : last.store.limits = segment.store.limits

theorem Moves.becomes {after : Volume} {gained : List Fingerprint}
    {others : PageId → List Fingerprint} {last : Segment}
    (moves : Moves homes after entries segment gained others last) :
    Becomes homes after entries segment gained others last where
  sound := moves.sound
  holds := moves.holds
  nextId_le := moves.grows.nextId_le
  directory := moves.grows.directory
  limits := moves.grows.limits

theorem Becomes.trans {middle final : Volume} {gained more : List Fingerprint}
    {others another : PageId → List Fingerprint} {between last : Segment}
    (first : Becomes homes middle entries segment gained others between)
    (second : Becomes homes final others between more another last) :
    Becomes homes final entries segment (more ++ gained) another last where
  sound := second.sound
  holds := by
    rw [List.append_assoc]
    exact second.holds.trans (first.holds.append_left more)
  nextId_le := Nat.le_trans first.nextId_le second.nextId_le
  directory := second.directory.trans first.directory
  limits := second.limits.trans first.limits

/-- A merge that ends is a reader no more. -/
theorem Sound.dropped (sound : segment.Sound homes before entries) :
    Becomes homes before entries segment [] entries segment.dropReader where
  sound := sound.withReaders _
  holds := List.Perm.refl _
  nextId_le := Nat.le_refl _
  directory := rfl
  limits := rfl

/-- What is left of a segment when a finished merge was settled. -/
def Settled (homes : Homes) (after : Volume) (entries : PageId → List Fingerprint)
    (segment : Segment) (merged : MergedPage) (last : Segment) : Prop :=
  Becomes homes after entries segment [] entries last ∧
    last.activeReaders = segment.activeReaders - 1 ∧
    last.store.nextId = segment.store.nextId ∧
    last.store.ids = segment.store.idsAfter merged ∧
    (last.store.contents entries).Perm (segment.store.contents entries)

theorem settle_runs (volumeSound : before.Sound) (sound : segment.Sound homes before entries)
    {merged : MergedPage} (ready : merged.Ready before entries segment.store) :
    Keeping.Runs (settle (.ok merged)) segment before
      (PageStore.Involved segment.store merged) NoFile
      (fun _ last after => Settled homes after entries segment merged last)
      fun last after => Settled homes after entries segment merged last := by
  have settled (last : Segment) (after : Volume)
      (kept : last = { segment.dropReader with store := last.store })
      (installed : PageStore.Installed entries segment.store merged last.store after) :
      Settled homes after entries segment merged last := by
    obtain ⟨storeSound, ids, nextId, directory, limits⟩ := installed
    have distinct := sound.distinct.sublist (List.sublist_append_right _ _)
    have contents : (last.store.contents entries).Perm (segment.store.contents entries) := by
      rw [PageStore.contents, ids]
      exact PageStore.contents_installed ready distinct
    refine ⟨⟨?_, ?_, Nat.le_of_eq nextId.symm, directory, limits⟩, by rw [kept]; rfl, nextId, ids,
      contents⟩
    · rw [kept]
      exact (sound.withReaders _).restored storeSound contents
    · rw [kept]
      exact contents.append_left _
  have installs := PageStore.install_runs volumeSound sound.store ready
  have onDropped : Keeping.Runs (onStore (PageStore.install merged)) segment.dropReader before
      (PageStore.Involved segment.store merged) NoFile _ _ := onStore_runs installs
  apply Keeping.Runs.modifyThen
  show Keeping.Runs (onStore (PageStore.install merged)) segment.dropReader before _ _ _ _
  apply onDropped.mono
  · exact fun _ last after _ ends => settled last after ends.1 ends.2
  · exact fun last after _ ends => settled last after ends.1 ends.2

/-- A merge gives back the number it was given. -/
theorem Settled.room {after : Volume} {merged : MergedPage} {last : Segment}
    (settled : Settled homes after entries segment merged last)
    (sound : segment.Sound homes before entries) (distinct : merged.replaced.Nodup)
    (live : ∀ id ∈ merged.replaced, id ∈ segment.store.ids) (several : 2 ≤ merged.replaced.length)
    {jobs : Nat} (room : segment.Room entries (jobs + 1)) : last.Room entries jobs := by
  obtain ⟨-, -, nextId, ids, contents⟩ := settled
  have lengths := PageStore.length_idsAfter sound.store distinct live
  have pages : last.store.ids.length = (segment.store.idsAfter merged).length := by rw [ids]
  dsimp only [Room, PageId] at room ⊢
  rw [nextId, contents.length_eq, pages]
  dsimp only [PageId]
  omega

/-- The paths below the directory of the pages. -/
def Pages (segment : Segment) : Path → Prop :=
  Below segment.store.directory

theorem pagePath_below (store : PageStore) (id : PageId) :
    Below store.directory (store.pagePath id) :=
  below_iff.mpr ⟨PageStore.pageName id, [], rfl⟩

theorem runCompaction_apply (job : CompactionJob) (segment : Segment) (before : Volume) :
    runCompaction job segment before = settle (job.run before).1 segment (job.run before).2 :=
  rfl

/-- Work on the target of a prepared merge leaves the segment sound. -/
theorem Sound.of_target {after : Volume} {job : CompactionJob} {used : FileId → Prop}
    (sound : segment.Sound homes before entries) (volumeSound : before.Sound)
    (prepared : job.Prepared before used entries segment.store)
    (changes : Changes (At job.target) NoFile before after) : segment.Sound homes after entries :=
  sound.restored (sound.store.of_target volumeSound prepared changes) (List.Perm.refl _)

/-- Running a prepared merge and settling it moves nothing out of the segment. -/
theorem runCompaction_runs (volumeSound : before.Sound)
    (sound : segment.Sound homes before entries) {job : CompactionJob} {used : FileId → Prop}
    (prepared : job.Prepared before used entries segment.store)
    (numbered : job.targetId < numberLimit)
    (live : ∀ id ∈ job.replaced, id ∈ segment.store.ids) (several : 2 ≤ job.replaced.length) :
    Keeping.Runs (runCompaction job) segment before segment.Pages NoFile
      (fun _ last after => Becomes homes after entries segment [] entries last ∧
        last.activeReaders = segment.activeReaders - 1 ∧
        ∀ jobs, segment.Room entries (jobs + 1) → last.Room entries jobs)
      fun last after => Becomes homes after entries segment [] entries last ∧
        last.activeReaders = segment.activeReaders - 1 := by
  have runs := CompactionJob.run_runs volumeSound sound.store.isDir numbered prepared
  have targets (path : Path) (same : At job.target path) : segment.Pages path := by
    rw [same, prepared.target]
    exact pagePath_below _ _
  rcases Meets.cases runs with ⟨merged, middle, result, changes, ready, -, replaced⟩ |
    ⟨error, middle, result, changes, refused⟩
  · have middleSound := changes.sound volumeSound
    have soundStill := sound.of_target volumeSound prepared changes
    have involves (path : Path) : PageStore.Involved segment.store merged path →
        segment.Pages path := by
      rintro ⟨id, -, rfl⟩
      exact pagePath_below _ _
    have settles := (settle_runs middleSound soundStill ready).widen involves fun _ _ none => none
    rcases settles.cases with ⟨_, last, after, settled, more, leaves⟩ |
      ⟨error, last, after, settled, more, leaves, refused⟩
    · apply Keeping.Runs.of_ok (by rw [runCompaction_apply, result, settled])
        ((changes.mono targets fun _ _ none => none).trans more)
      refine ⟨leaves.1, leaves.2.1, fun jobs room => leaves.room soundStill ready.distinct ?_ ?_ room⟩
      · exact replaced ▸ live
      · exact replaced ▸ several
    · apply Keeping.Runs.of_error (by rw [runCompaction_apply, result, settled])
        ((changes.mono targets fun _ _ none => none).trans more) ⟨leaves.1, leaves.2.1⟩
      exact fun quiet => refused (changes.quiet quiet)
  · have failed : settle (.error error) segment middle =
        ((.error error, segment.dropReader), middle) := rfl
    have soundStill := sound.of_target volumeSound prepared changes
    exact Keeping.Runs.of_error (by rw [runCompaction_apply, result, failed])
      (changes.mono targets fun _ _ none => none) ⟨soundStill.dropped, rfl⟩ refused

end Segment

end FingerprintSet
