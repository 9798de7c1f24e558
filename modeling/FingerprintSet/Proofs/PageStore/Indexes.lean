import FingerprintSet.Proofs.PageStore.Jobs
import FingerprintSet.Proofs.PageStore.Limits
import FingerprintSet.Proofs.Storage.Deciding
import Mathlib.Algebra.Group.Nat.Defs

/-!
# Indexes after any course

Indexes are thinned until they fit the budget or have one entry each, and no bound on the number of
thinnings cuts this short.  A page is thinned any number of times, so that its stride is the stride
of a new page doubled as often.

Whatever steps of a course are refused, what the pages say is so: the indexes hold what the files
have at the multiples of the strides, and looking a fingerprint up by way of them finds the entries
of the files and nothing else.
-/

namespace FingerprintSet

open Storage Volume SortedFile

namespace Page

variable {pages : List Page} {budget bound base : Nat}

/-! ## Thinning ends -/

/-- Indexes that are not thinned any more. -/
def Settled (budget : Nat) (pages : List Page) : Prop :=
  indexEntries pages ≤ budget ∨ largestIndex pages ≤ 1

/-- While indexes are thinned, each round takes an entry away at least. -/
theorem indexEntries_thinLast_lt (several : 1 < largestIndex pages) :
    indexEntries (thinLast (largestIndex pages) pages) < indexEntries pages := by
  have fewer := indexEntries_thinLast (exists_largestIndex (Nat.lt_of_succ_lt several))
  omega

theorem fitIndexes_settled (enough : indexEntries pages ≤ bound) :
    Settled budget (fitIndexes budget bound pages) := by
  fun_induction fitIndexes budget bound pages with
  | case1 => exact Or.inl (Nat.le_trans enough (Nat.zero_le _))
  | case2 bound pages fits => exact Or.inl fits
  | case3 bound pages _ single => exact Or.inr single
  | case4 bound pages _ several ih =>
      have fewer := indexEntries_thinLast_lt (Nat.lt_of_not_le several)
      exact ih (by omega)

/-- A greater bound on the number of thinnings makes no difference. -/
theorem fitIndexes_eq {more : Nat} (enough : indexEntries pages ≤ bound) (below : bound ≤ more) :
    fitIndexes budget more pages = fitIndexes budget bound pages := by
  fun_induction fitIndexes budget bound pages generalizing more with
  | case1 pages =>
      have fits : indexEntries pages ≤ budget := Nat.le_trans enough (Nat.zero_le _)
      cases more with
      | zero => rfl
      | succ more => rw [fitIndexes, if_pos fits]
  | case2 bound pages fits =>
      obtain ⟨more, rfl⟩ := Nat.exists_eq_add_of_le' (Nat.le_trans (Nat.le_add_left 1 bound) below)
      rw [fitIndexes, if_pos fits]
  | case3 bound pages exceeds single =>
      obtain ⟨more, rfl⟩ := Nat.exists_eq_add_of_le' (Nat.le_trans (Nat.le_add_left 1 bound) below)
      rw [fitIndexes, if_neg exceeds, if_pos single]
  | case4 bound pages exceeds several ih =>
      obtain ⟨more, rfl⟩ := Nat.exists_eq_add_of_le' (Nat.le_trans (Nat.le_add_left 1 bound) below)
      have fewer := indexEntries_thinLast_lt (Nat.lt_of_not_le several)
      rw [fitIndexes, if_neg exceeds, if_neg several]
      exact ih (by omega) (Nat.le_of_succ_le_succ below)

/-! ## Strides -/

/-- The stride of a page that was thinned some times. -/
def Strided (base : Nat) (page : Page) : Prop :=
  ∃ thinnings, page.stride = base * 2 ^ thinnings

theorem Strided.thin {page : Page} (strided : page.Strided base) : page.thin.Strided base := by
  obtain ⟨thinnings, stride⟩ := strided
  refine ⟨thinnings + 1, ?_⟩
  rw [Nat.pow_succ, ← Nat.mul_assoc, ← stride]
  rfl

/-! ## Looking up -/

/-- What a page says of a fingerprint is so, and where it names a block of the file with the given
bytes, searching the block tells. -/
def Finds (page : Page) (bytes : Bytes) (fps : List Fingerprint) (fp : Fingerprint) : Prop :=
  match page.locate fp with
  | .absent => fp ∉ fps
  | .present => fp ∈ fps
  | .block start length => 0 < length ∧ start + length ≤ page.count ∧
      (searchBlock (bytes.extract (entryPosition start)
        (entryPosition start + length * entryLength)) fp = true ↔ fp ∈ fps)

theorem Describes.finds {page : Page} {fps : List Fingerprint} (describes : page.Describes fps)
    (fp : Fingerprint) : page.Finds (fileBytes .page fps) fps fp := by
  have tells := locate_tells describes fp
  rw [Finds]
  generalize page.locate fp = whereabouts at tells
  cases whereabouts with
  | absent => exact tells
  | present => exact tells
  | block start length =>
      obtain ⟨some, inside, decides⟩ := tells
      refine ⟨some, describes.count ▸ inside, ?_⟩
      rw [searchBlock_iff block_spelled ((describes.ascending.drop start).take length), decides]

end Page

namespace PageStore

/-! ## Stores whose indexes fit -/

/-- A store whose indexes fit the budget, with strides that come of thinning. -/
structure Indexed (limits : StoreLimits) (store : PageStore) : Prop where
  same : store.limits = limits
  fits : store.indexEntries ≤ max limits.indexEntries store.pageCount
  strided : ∀ page ∈ store.pages, page.Strided limits.stride

section

variable {store last : PageStore} {limits : StoreLimits}

theorem Indexed.of_same (indexed : store.Indexed limits) (pages : last.pages = store.pages)
    (same : last.limits = store.limits) : last.Indexed limits where
  same := same.trans indexed.same
  fits := by
    rw [indexEntries, pageCount, pages]
    exact indexed.fits
  strided := pages ▸ indexed.strided

/-- Some of the pages and a new one are brought within the budget. -/
theorem Indexed.repaged (indexed : store.Indexed limits) {kept : List Page} {page : Page}
    (sub : ∀ old ∈ kept, old ∈ store.pages) (fresh : page.stride = limits.stride)
    (same : last.limits = store.limits)
    (pages : last.pages = Page.withinBudget store.limits.indexEntries (kept ++ [page])) :
    last.Indexed limits where
  same := same.trans indexed.same
  fits := by
    rw [indexEntries, pageCount, pages, indexed.same, Page.length_withinBudget]
    exact Page.indexEntries_withinBudget_le _ _
  strided := by
    rw [pages]
    refine @Page.forall_withinBudget (Page.Strided limits.stride) _ (fun _ => Page.Strided.thin) _
      fun other mem => ?_
    rcases List.mem_append.mp mem with old | new
    · exact indexed.strided other (sub other old)
    · rw [List.mem_singleton.mp new]
      exact ⟨0, by rw [fresh, Nat.pow_zero, Nat.mul_one]⟩

theorem append_indexed (indexed : store.Indexed limits) (fps : List Fingerprint) :
    Keeping.Leaves (append fps) store fun _ last => last.Indexed limits := by
  have used : store.numberUsed.Indexed limits := indexed.of_same rfl rfl
  refine (append_outcome fps).mono fun _ _ appending => ?_
  cases appending with
  | nothing => exact indexed
  | added =>
      exact used.repaged (fun _ mem => mem) (congrArg StoreLimits.stride used.same) rfl rfl
  | refused => exact used

theorem Indexed.rehandled (indexed : store.Indexed limits) (rehandled : store.Rehandled last) :
    last.Indexed limits :=
  indexed.of_same rehandled.same.pages rehandled.same.limits

theorem probe_indexed (indexed : store.Indexed limits) (fp : Fingerprint) :
    Keeping.Leaves (probe fp) store fun _ last => last.Indexed limits :=
  (probe_outcome fp).mono fun _ _ => indexed.rehandled

theorem Indexed.preparing (indexed : store.Indexed limits) {replaced : List PageId}
    {result : Except Error (Option CompactionJob)} (preparing : store.Preparing replaced result last) :
    last.Indexed limits := by
  cases preparing with
  | few | refused => exact indexed
  | prepared => exact indexed.of_same rfl rfl

theorem compactionJob_indexed (indexed : store.Indexed limits) :
    Keeping.Leaves compactionJob store fun _ last => last.Indexed limits :=
  compactionJob_outcome.mono fun _ _ => indexed.preparing

theorem tieredCompactionJob_indexed (indexed : store.Indexed limits) (maxPages : Nat) :
    Keeping.Leaves (tieredCompactionJob maxPages) store fun _ last => last.Indexed limits := by
  refine (tieredCompactionJob_outcome maxPages).mono fun _ _ tiering => ?_
  cases tiering with
  | fits => exact indexed
  | chosen tooMany preparing => exact indexed.preparing preparing

theorem install_indexed (indexed : store.Indexed limits) (merged : MergedPage) :
    Keeping.Leaves (install merged) store fun _ last => last.Indexed limits := by
  refine (install_outcome merged).mono fun _ _ installing => ?_
  cases installing with
  | stale => exact indexed
  | takenIn all rehandled =>
      have taken : (store.takenIn merged).Indexed limits :=
        indexed.repaged (fun _ => mem_keptBy) (congrArg StoreLimits.stride indexed.same) rfl rfl
      exact taken.rehandled rehandled

theorem compact_indexed (indexed : store.Indexed limits) :
    Keeping.Leaves compact store fun _ last => last.Indexed limits := by
  refine Keeping.Leaves.bind _ (compactionJob_indexed indexed) ?_ fun _ _ still => still
  intro job last still
  cases job with
  | none => exact Keeping.Leaves.pure still
  | some job =>
      refine Keeping.Leaves.bind (fun _ last => last.Indexed limits)
        (Keeping.Leaves.lift fun _ => still) ?_ fun _ _ still => still
      exact fun merged _ still => install_indexed still merged

end

namespace Bench

variable {bench : Bench} {limits : StoreLimits} {before : Volume}

@[simp]
theorem worked_store {α : Type} (result : Except Error α) (store : PageStore) :
    (bench.worked result store).store = store := by
  cases result <;> rfl

@[simp]
theorem offered_store (result : Except Error (Option CompactionJob)) (store : PageStore) :
    (bench.offered result store).store = store := by
  rcases result with _ | _ | _ <;> rfl

@[simp]
theorem ran_store (slot : Nat) (result : Except Error MergedPage) :
    (bench.ran slot result).store = bench.store := by
  cases result <;> rfl

/-- A step keeps the indexes within the budget. -/
theorem perform_indexed (indexed : bench.store.Indexed limits) (move : Move) :
    (bench.perform move before).1.store.Indexed limits := by
  cases move with
  | append fps =>
      rw [perform_append rfl, worked_store]
      exact append_indexed indexed fps before
  | prepare =>
      rw [perform_prepare rfl, offered_store]
      exact compactionJob_indexed indexed before
  | prepareTiered maxPages =>
      rw [perform_prepareTiered rfl, offered_store]
      exact tieredCompactionJob_indexed indexed maxPages before
  | run slot =>
      rcases run_or_idle bench slot before with ⟨job, here⟩ | idle
      · rw [perform_run here rfl, ran_store]
        exact indexed
      · rw [idle]
        exact indexed
  | install slot =>
      rcases install_or_idle bench slot before with ⟨merged, here⟩ | idle
      · rw [perform_install here rfl, installed, worked_store]
        exact install_indexed indexed merged before
      · rw [idle]
        exact indexed
  | compact =>
      rw [perform_compact rfl, worked_store]
      exact compact_indexed indexed before
  | probe fp =>
      rw [perform_probe rfl, worked_store]
      exact probe_indexed indexed fp before

theorem run_indexed (indexed : bench.store.Indexed limits) (moves : List Move) :
    (Bench.run moves bench before).1.store.Indexed limits := by
  induction moves generalizing bench before with
  | nil => exact indexed
  | cons move moves ih => exact ih (perform_indexed indexed move)

end Bench

/-! ## Courses with refusals -/

namespace Bench

variable {before after : Volume} {entries others : PageId → List Fingerprint} {bench : Bench}
  {last : PageStore} {appended gained : List Fingerprint} {slot : Nat}

/-- What is known between two steps, whatever was refused before. -/
structure Stands (volume : Volume) (entries : PageId → List Fingerprint)
    (appended : List Fingerprint) (bench : Bench) : Prop where
  tree : volume.Sound
  store : bench.store.Sound volume entries
  among : ∀ fp, fp ∈ bench.store.contents entries → fp ∈ appended
  underway : Underway volume entries bench.store bench.errands

/-- What is known after a step that may use up one number. -/
def Keeps (bench : Bench) (ended : Bench × Volume) (appended : List Fingerprint) : Prop :=
  ∃ others, ended.1.Stands ended.2 others appended ∧
    ended.1.store.nextId ≤ bench.store.nextId + 1

/-- What went wrong is written down and plays no part. -/
theorem Stands.worked {α : Type} (stands : Stands before entries appended { bench with store := last })
    (result : Except Error α) : (bench.worked result last).Stands before entries appended := by
  cases result with
  | ok => exact stands
  | error error => exact { stands with }

theorem Stands.few (stands : bench.Stands before entries appended)
    (few : (sorted appended).length < countLimit) :
    ∀ id ∈ bench.store.ids, (entries id).length < countLimit :=
  stands.store.few stands.among few

/-- A step that gains what it was to gain at most. -/
theorem Stands.advanced (stands : bench.Stands before entries appended)
    (changes : Changes bench.store.Own NoFile before after)
    (advances : Advances after entries bench.store gained others last) {more : List Fingerprint}
    (sub : ∀ fp ∈ gained, fp ∈ more) :
    Stands after others (appended ++ more) { bench with store := last } where
  tree := changes.sound stands.tree
  store := advances.sound
  among fp mem :=
    List.mem_append.mpr (((advances.held fp).mp mem).imp (stands.among fp) (sub fp))
  underway := stands.underway.advanced stands.tree changes advances

/-- A merge that was prepared joins the others. -/
theorem Stands.offered (stands : bench.Stands before entries appended) {job : Option CompactionJob}
    (changes : Changes Nowhere NoFile before after)
    (prepares : Prepares after entries bench.store last job) :
    bench.Keeps (bench.offered (.ok job) last, after) appended := by
  obtain ⟨others, advances, waiting⟩ := prepares
  have ownChanges : Changes bench.store.Own NoFile before after :=
    changes.mono (fun _ none => none.elim) fun _ _ none => none
  have advanced := stands.advanced ownChanges advances fun _ mem => mem
  rw [List.append_nil] at advanced
  cases job with
  | none => exact ⟨others, advanced, advances.single⟩
  | some job =>
      have joined := stands.underway.joined advanced.underway (waiting job rfl)
      exact ⟨others, { advanced with underway := joined }, advances.single⟩

theorem Stands.stays (stands : bench.Stands before entries appended) :
    bench.Keeps (bench, before) appended :=
  ⟨entries, stands, Nat.le_succ _⟩

theorem Stands.ran (stands : bench.Stands before entries appended)
    (room : bench.store.nextId < numberLimit) (slot : Nat) :
    bench.Keeps (bench.perform (.run slot) before) appended := by
  rcases run_or_idle bench slot before with ⟨job, here⟩ | idle
  · obtain ⟨used, prepared⟩ := stands.underway.each _ (List.mem_of_getElem? here)
    have store {after : Volume} (changes : Changes (At job.target) NoFile before after) :
        bench.store.Sound after entries :=
      stands.store.of_target stands.tree prepared changes
    have runs := CompactionJob.run_runs stands.tree stands.store.isDir
      (Nat.lt_trans prepared.numbered room) prepared
    rcases runs.cases with ⟨merged, after, ended, changes, ready, id, replaced⟩ |
      ⟨error, after, ended, changes, -⟩
    · rw [perform_run here ended]
      refine ⟨entries, ?_, Nat.le_succ _⟩
      exact
        { tree := changes.sound stands.tree
          store := store changes
          among := stands.among
          underway := stands.underway.finished stands.tree here changes ready id replaced }
    · rw [perform_run here ended]
      refine ⟨entries, ?_, Nat.le_succ _⟩
      exact
        { tree := changes.sound stands.tree
          store := store changes
          among := stands.among
          underway := stands.underway.givenUp stands.tree here changes }
  · rw [idle]
    exact stands.stays

theorem Stands.installed (stands : bench.Stands before entries appended) (slot : Nat) :
    bench.Keeps (bench.perform (.install slot) before) appended := by
  rcases install_or_idle bench slot before with ⟨merged, here⟩ | idle
  · have ready : merged.Ready before entries bench.store :=
      stands.underway.each _ (List.mem_of_getElem? here)
    have keeps (result : Except Error Unit) (last : PageStore) (after : Volume)
        (changes : Changes (bench.store.Involved merged) NoFile before after)
        (installed : Installed entries bench.store merged last after) :
        bench.Keeps (bench.installed slot result last, after) appended := by
      obtain ⟨-, -, held⟩ := installed.advances ready
      have standsStill : Stands after entries appended
          { bench with errands := bench.errands.eraseIdx slot, store := last } :=
        { tree := changes.sound stands.tree
          store := installed.1
          among := fun fp mem => stands.among fp ((held fp).mp mem)
          underway := stands.underway.takenIn stands.tree here changes installed }
      refine ⟨entries, standsStill.worked result, ?_⟩
      rw [Bench.installed, worked_store, installed.2.2.1]
      exact Nat.le_succ _
    rcases (install_runs stands.tree stands.store ready).cases with
      ⟨_, last, after, ended, changes, installed⟩ | ⟨_, last, after, ended, changes, installed, -⟩
    · rw [perform_install here ended]
      exact keeps _ last after changes installed
    · rw [perform_install here ended]
      exact keeps _ last after changes installed
  · rw [idle]
    exact stands.stays

/-- What is known between two steps is known after the next one, whatever becomes of it. -/
theorem Stands.step (stands : bench.Stands before entries appended)
    (room : bench.store.nextId < numberLimit) (few : (sorted appended).length < countLimit)
    (move : Move) (ascending : Ascending move.added) :
    bench.Keeps (bench.perform move before) (appended ++ move.added) := by
  have same := (List.append_nil appended).symm
  have keeps {α : Type} (result : Except Error α) {others : PageId → List Fingerprint}
      {gained : List Fingerprint} {last : PageStore} {after : Volume}
      (changes : Changes bench.store.Own NoFile before after)
      (advances : Advances after entries bench.store gained others last)
      {more : List Fingerprint} (sub : ∀ fp ∈ gained, fp ∈ more) :
      bench.Keeps (bench.worked result last, after) (appended ++ more) := by
    refine ⟨others, (stands.advanced changes advances sub).worked result, ?_⟩
    rw [worked_store]
    exact advances.single
  have own {after : Volume} (changes : Changes Nowhere NoFile before after) :
      Changes bench.store.Own NoFile before after :=
    changes.mono (fun _ none => none.elim) fun _ _ none => none
  cases move with
  | append fps =>
      have listed : Ascending fps := ascending
      rcases (append_advances stands.tree stands.store listed room).cases with
        ⟨_, last, after, ended, changes, others, advances⟩ |
        ⟨_, last, after, ended, changes, advances, -⟩
      · rw [perform_append ended]
        exact keeps _ changes advances fun _ mem => mem
      · rw [perform_append ended]
        exact keeps _ changes advances nofun
  | prepare =>
      rcases (compactionJob_prepares stands.tree stands.store (stands.few few)).cases with
        ⟨job, last, after, ended, changes, prepares⟩ |
        ⟨error, last, after, ended, changes, advances, -⟩
      · rw [perform_prepare ended]
        exact same ▸ stands.offered changes prepares
      · rw [perform_prepare ended]
        exact keeps (.error error : Except Error (Option CompactionJob)) (own changes) advances nofun
  | prepareTiered maxPages =>
      rcases (tieredCompactionJob_prepares stands.tree stands.store (stands.few few) maxPages).cases
        with ⟨job, last, after, ended, changes, prepares⟩ |
        ⟨error, last, after, ended, changes, advances, -⟩
      · rw [perform_prepareTiered ended]
        exact same ▸ stands.offered changes prepares
      · rw [perform_prepareTiered ended]
        exact keeps (.error error : Except Error (Option CompactionJob)) (own changes) advances nofun
  | run slot => exact same ▸ stands.ran room slot
  | install slot => exact same ▸ stands.installed slot
  | compact =>
      rcases (compact_advances stands.tree stands.store (stands.few few) room).cases with
        ⟨_, last, after, ended, changes, others, advances⟩ |
        ⟨_, last, after, ended, changes, ⟨others, advances⟩, -⟩
      · rw [perform_compact ended]
        exact keeps _ changes advances nofun
      · rw [perform_compact ended]
        exact keeps _ changes advances nofun
  | probe fp =>
      rcases (probe_advances stands.tree stands.store fp).cases with
        ⟨_, last, after, ended, changes, ⟨advances, -⟩⟩ |
        ⟨_, last, after, ended, changes, advances, -⟩
      · rw [perform_probe ended]
        exact keeps _ changes advances nofun
      · rw [perform_probe ended]
        exact keeps _ changes advances nofun

/-- What is known at first is known after any course, whatever is refused on the way. -/
theorem Stands.run (stands : bench.Stands before entries appended) (moves : List Move)
    (ascending : ∀ fps, .append fps ∈ moves → Ascending fps)
    (room : bench.store.nextId + moves.length ≤ numberLimit)
    (few : (sorted (appended ++ moves.flatMap Move.added)).length < countLimit) :
    ∃ others, (Bench.run moves bench before).1.Stands (Bench.run moves bench before).2 others
      (appended ++ moves.flatMap Move.added) := by
  refine @run_keeps _ _ _ (fun bench before appended =>
    ∃ entries, bench.Stands before entries appended) ?_ ⟨entries, stands⟩ moves ascending room few
  rintro bench before appended move ⟨entries, stands⟩ room few ascending
  obtain ⟨others, next, single⟩ := stands.step room few move ascending
  exact ⟨⟨others, next⟩, single⟩

end Bench

/-- A new store holds nothing, keeps no index, and no merge is on its way. -/
theorem Site.begun_stands {site : Site} (created : site.create.1.isOk = true) :
    ∃ entries, site.begun.1.Stands site.begun.2 entries [] ∧ site.begun.1.store.nextId = 0 ∧
      site.begun.1.store.Indexed site.limits := by
  obtain ⟨store, before, begun, changes, sound, pages, nextId, limits, -⟩ := begun_new created
  rw [begun]
  refine ⟨fun _ => [], ?_, nextId, ?_⟩
  · exact
      { tree := changes.sound site.sound
        store := sound
        among := by simp [contents, ids, pages]
        underway := ⟨by simp, List.Pairwise.nil⟩ }
  · exact
      { same := limits
        fits := by simp [indexEntries, pages, Page.indexEntries]
        strided := by simp [pages] }

/-- Whatever pages are appended and merged, and whatever is refused on the way: the thinning of
indexes ends by itself, with indexes that fit the budget or have one entry for each page.  Each page
keeps the entries at the multiples of its stride, which is the stride of a new page doubled some
times.  Where a page says a fingerprint is present or absent, that is so, and else searching the
block that it names in its file tells. -/
theorem indexes_right (site : Site) (created : site.create.1.isOk = true) (moves : List Move)
    (ascending : ∀ fps, .append fps ∈ moves → Ascending fps)
    (numbered : moves.length ≤ UInt64.size)
    (few : (sorted (moves.flatMap Move.added)).length < UInt64.size) :
    (∀ budget bound pages, Page.indexEntries pages ≤ bound →
        Page.fitIndexes budget bound pages = Page.withinBudget budget pages ∧
          Page.Settled budget (Page.withinBudget budget pages)) ∧
      (site.after moves).1.store.indexEntries ≤
        max site.limits.indexEntries (site.after moves).1.store.pageCount ∧
      ∀ page ∈ (site.after moves).1.store.pages, ∃ fps,
        (site.after moves).2.bytes? page.path = some (fileBytes .page fps) ∧
        page.count = fps.length ∧ page.Strided site.limits.stride ∧
        Samples page.stride page.index fps ∧
        ∀ fp, page.Finds (fileBytes .page fps) fps fp := by
  obtain ⟨entries, begun, nextId, indexed⟩ := Site.begun_stands created
  have room : site.begun.1.store.nextId + moves.length ≤ numberLimit := by
    rw [nextId, Nat.zero_add]
    exact Nat.le_trans numbered (by decide)
  obtain ⟨others, stands⟩ := begun.run moves ascending room few
  have still := @Bench.run_indexed _ _ site.begun.2 indexed moves
  refine ⟨fun budget bound pages enough => ⟨?_, ?_⟩, still.fits, fun page mem => ?_⟩
  · exact Page.fitIndexes_eq (Nat.le_refl _) enough
  · exact Page.fitIndexes_settled (Nat.le_refl _)
  · have describes := stands.store.describes page mem
    obtain ⟨file, holds⟩ := stands.store.filed page mem
    exact ⟨others page.id, bytes?_eq_some_iff.mpr ⟨file, holds.bound, holds.bytes⟩,
      describes.count, still.strided page mem, describes.sampled, describes.finds⟩

/-- Three index entries on a volume that once refuses to read. -/
def Site.scarce : Site where
  volume := { faults := fun tick => if tick = 13 then some .inputOutput else none }
  directory := []
  limits :=
    { stride := 1
      durable := false
      indexEntries := 3
      openHandles := 1 }
  stride := by decide
  sound := empty_sound _
  creatable :=
    { named := by simp
      noFile := by simp }
  free := by simp

/-- The merge fails, so that three pages remain, each with one index entry. -/
theorem indexes_right_scarce :
    let site := Site.scarce
    let moves := [.append [1, 3, 5, 7, 9], .append [2, 4, 6], .prepare, .run 0, .append [11, 12],
      .install 0]
    site.create.1.isOk = true ∧ (∀ fps, .append fps ∈ moves → Ascending fps) ∧
      moves.length ≤ UInt64.size ∧ (sorted (moves.flatMap Move.added)).length < UInt64.size ∧
      (site.after moves).1.errors.length = 1 ∧
      (site.after moves).1.store.pages.map (fun page => (page.stride, page.index)) =
        [(8, #[1]), (4, #[2]), (2, #[11])] ∧
      (site.after moves).1.store.indexEntries ≤
        max site.limits.indexEntries (site.after moves).1.store.pageCount ∧
      ∀ page ∈ (site.after moves).1.store.pages, ∃ fps,
        (site.after moves).2.bytes? page.path = some (fileBytes .page fps) ∧
          page.Finds (fileBytes .page fps) fps 9 := by
  intro site moves
  have created : site.create.1.isOk = true := by decide +kernel
  have ascending (fps : List Fingerprint) (mem : .append fps ∈ moves) : Ascending fps := by
    have each : ∀ move ∈ moves, Ascending move.added := by
      simp only [moves, List.forall_mem_cons, Move.added, Ascending]
      decide
    exact each _ mem
  have numbered : moves.length ≤ UInt64.size := by decide
  have few : (sorted (moves.flatMap Move.added)).length < UInt64.size := by decide +kernel
  obtain ⟨-, fits, each⟩ := indexes_right site created moves ascending numbered few
  refine ⟨created, ascending, numbered, few, by decide +kernel, by decide +kernel, fits, ?_⟩
  intro page mem
  obtain ⟨fps, bytes, -, -, -, finds⟩ := each page mem
  exact ⟨fps, bytes, finds 9⟩

end PageStore

end FingerprintSet
