import FingerprintSet.Proofs.PageStore.Compaction

/-!
# Many merges on their way

A prepared merge may wait for as long as it likes before it is run, and its result before it is
installed.  Meanwhile pages are appended and other merges are prepared, of the same pages too,
so that a result can come when its input pages are gone.  A course is the list of the steps
taken on a store.

A merge on its way is not disturbed by a step that touches only live pages and new numbers, nor
by another merge on its way: neither of the two writes a page that the other one writes or
replaces.  So after any course the pages hold what was appended.
-/

namespace FingerprintSet

open Storage Volume SortedFile

namespace PageStore

/-- A merge on its way. -/
inductive Errand
  | prepared (job : CompactionJob)
  | finished (merged : MergedPage)
  deriving Inhabited

/-- A store and the merges of its pages that are on their way. -/
structure Bench where
  store : PageStore
  errands : List Errand := []
  /-- Whatever went wrong. -/
  errors : List Error := []
  deriving Inhabited

/-- One step on a store. -/
inductive Move
  | append (fps : List Fingerprint)
  /-- Prepare a merge of all pages. -/
  | prepare
  | prepareTiered (maxPages : Nat)
  /-- Run a prepared merge. -/
  | run (slot : Nat)
  /-- Install the result of a merge. -/
  | install (slot : Nat)
  /-- Prepare, run and install a merge of all pages at once. -/
  | compact
  | probe (fp : Fingerprint)
  deriving DecidableEq, Repr, Inhabited

namespace Bench

/-- Some work on the store has ended. -/
def worked {α : Type} (bench : Bench) (result : Except Error α) (store : PageStore) : Bench :=
  match result with
  | .ok _ => { bench with store }
  | .error error => { bench with store, errors := bench.errors ++ [error] }

/-- A merge was asked for. -/
def offered (bench : Bench) (result : Except Error (Option CompactionJob)) (store : PageStore) :
    Bench :=
  match result with
  | .ok (some job) => { bench with store, errands := bench.errands ++ [.prepared job] }
  | result => bench.worked result store

/-- A prepared merge was run. -/
def ran (bench : Bench) (slot : Nat) : Except Error MergedPage → Bench
  | .ok merged => { bench with errands := bench.errands.set slot (.finished merged) }
  | .error error =>
      { bench with
        errands := bench.errands.eraseIdx slot
        errors := bench.errors ++ [error] }

/-- The result of a merge was installed. -/
def installed (bench : Bench) (slot : Nat) (result : Except Error Unit) (store : PageStore) :
    Bench :=
  { bench with errands := bench.errands.eraseIdx slot }.worked result store

/-- Take one step.  A step that the merge in its slot is not at changes nothing. -/
def perform (bench : Bench) : Move → StateM Volume Bench
  | .append fps => do
      let (result, store) ← (append fps bench.store : StateM Volume _)
      pure (bench.worked result store)
  | .prepare => do
      let (result, store) ← (compactionJob bench.store : StateM Volume _)
      pure (bench.offered result store)
  | .prepareTiered maxPages => do
      let (result, store) ← (tieredCompactionJob maxPages bench.store : StateM Volume _)
      pure (bench.offered result store)
  | .run slot => do
      match bench.errands[slot]? with
      | some (.prepared job) =>
          let outcome ← (job.run : StateM Volume _)
          pure (bench.ran slot outcome)
      | _ => pure bench
  | .install slot => do
      match bench.errands[slot]? with
      | some (.finished merged) =>
          let (result, store) ← (install merged bench.store : StateM Volume _)
          pure (bench.installed slot result store)
      | _ => pure bench
  | .compact => do
      let (result, store) ← (compact bench.store : StateM Volume _)
      pure (bench.worked result store)
  | .probe fp => do
      let (result, store) ← (probe fp bench.store : StateM Volume _)
      pure (bench.worked result store)

/-- Take the steps of a course. -/
def run : List Move → Bench → StateM Volume Bench
  | [], bench => pure bench
  | move :: moves, bench => do run moves (← bench.perform move)

variable {bench : Bench} {before after : Volume} {last : PageStore} {slot : Nat}

theorem perform_append {fps : List Fingerprint} {result : Except Error Unit}
    (ended : append fps bench.store before = ((result, last), after)) :
    bench.perform (.append fps) before = (bench.worked result last, after) := by
  have unfolded : bench.perform (.append fps) before =
      (bench.worked (append fps bench.store before).1.1 (append fps bench.store before).1.2,
        (append fps bench.store before).2) := rfl
  rw [unfolded, ended]

theorem perform_prepare {result : Except Error (Option CompactionJob)}
    (ended : compactionJob bench.store before = ((result, last), after)) :
    bench.perform .prepare before = (bench.offered result last, after) := by
  have unfolded : bench.perform .prepare before =
      (bench.offered (compactionJob bench.store before).1.1 (compactionJob bench.store before).1.2,
        (compactionJob bench.store before).2) := rfl
  rw [unfolded, ended]

theorem perform_prepareTiered {maxPages : Nat} {result : Except Error (Option CompactionJob)}
    (ended : tieredCompactionJob maxPages bench.store before = ((result, last), after)) :
    bench.perform (.prepareTiered maxPages) before = (bench.offered result last, after) := by
  have unfolded : bench.perform (.prepareTiered maxPages) before =
      (bench.offered (tieredCompactionJob maxPages bench.store before).1.1
        (tieredCompactionJob maxPages bench.store before).1.2,
        (tieredCompactionJob maxPages bench.store before).2) := rfl
  rw [unfolded, ended]

theorem perform_run {job : CompactionJob} {outcome : Except Error MergedPage}
    (here : bench.errands[slot]? = some (.prepared job)) (ended : job.run before = (outcome, after)) :
    bench.perform (.run slot) before = (bench.ran slot outcome, after) := by
  have unfolded : bench.perform (.run slot) before =
      (bench.ran slot (job.run before).1, (job.run before).2) := by
    rw [perform, here]
    rfl
  rw [unfolded, ended]

theorem perform_install {merged : MergedPage} {result : Except Error Unit}
    (here : bench.errands[slot]? = some (.finished merged))
    (ended : install merged bench.store before = ((result, last), after)) :
    bench.perform (.install slot) before = (bench.installed slot result last, after) := by
  have unfolded : bench.perform (.install slot) before =
      (bench.installed slot (install merged bench.store before).1.1
        (install merged bench.store before).1.2, (install merged bench.store before).2) := by
    rw [perform, here]
    rfl
  rw [unfolded, ended]

theorem perform_compact {result : Except Error Unit}
    (ended : compact bench.store before = ((result, last), after)) :
    bench.perform .compact before = (bench.worked result last, after) := by
  have unfolded : bench.perform .compact before =
      (bench.worked (compact bench.store before).1.1 (compact bench.store before).1.2,
        (compact bench.store before).2) := rfl
  rw [unfolded, ended]

theorem perform_probe {fp : Fingerprint} {result : Except Error Bool}
    (ended : probe fp bench.store before = ((result, last), after)) :
    bench.perform (.probe fp) before = (bench.worked result last, after) := by
  have unfolded : bench.perform (.probe fp) before =
      (bench.worked (probe fp bench.store before).1.1 (probe fp bench.store before).1.2,
        (probe fp bench.store before).2) := rfl
  rw [unfolded, ended]

/-- Only a merge that is prepared can be run. -/
theorem run_or_idle (bench : Bench) (slot : Nat) (before : Volume) :
    (∃ job, bench.errands[slot]? = some (.prepared job)) ∨
      bench.perform (.run slot) before = (bench, before) := by
  rcases here : bench.errands[slot]? with _ | job | merged
  · exact Or.inr (by rw [perform, here]; rfl)
  · exact Or.inl ⟨job, rfl⟩
  · exact Or.inr (by rw [perform, here]; rfl)

/-- Only the result of a merge that was run can be installed. -/
theorem install_or_idle (bench : Bench) (slot : Nat) (before : Volume) :
    (∃ merged, bench.errands[slot]? = some (.finished merged)) ∨
      bench.perform (.install slot) before = (bench, before) := by
  rcases here : bench.errands[slot]? with _ | job | merged
  · exact Or.inr (by rw [perform, here]; rfl)
  · exact Or.inr (by rw [perform, here]; rfl)
  · exact Or.inl ⟨merged, rfl⟩

end Bench

/-! ## Merges that wait -/

section

variable {before after : Volume} {entries others : PageId → List Fingerprint}
  {store last : PageStore} {paths : Path → Prop} {errand : Errand}

namespace Errand

/-- The number of the merged page. -/
def target : Errand → PageId
  | prepared job => job.targetId
  | finished merged => merged.id

/-- The pages to be replaced. -/
def replaced : Errand → List PageId
  | prepared job => job.replaced
  | finished merged => merged.replaced

/-- What is known of a merge that waits. -/
def Sound (volume : Volume) (entries : PageId → List Fingerprint) (store : PageStore) :
    Errand → Prop
  | prepared job => ∃ used, job.Prepared volume used entries store
  | finished merged => merged.Ready volume entries store

/-- Neither of two merges writes a page that the other one writes or replaces. -/
def Apart (first second : Errand) : Prop :=
  first.target ≠ second.target ∧ first.target ∉ second.replaced ∧ second.target ∉ first.replaced

theorem Apart.symm {first second : Errand} (apart : first.Apart second) : second.Apart first :=
  ⟨apart.1.symm, apart.2.2, apart.2.1⟩

theorem Sound.numbered (sound : errand.Sound before entries store) :
    errand.target < store.nextId := by
  cases errand with
  | prepared job => exact sound.elim fun _ prepared => prepared.numbered
  | finished merged => exact MergedPage.Ready.numbered sound

theorem Sound.absent (sound : errand.Sound before entries store) : errand.target ∉ store.ids := by
  cases errand with
  | prepared job => exact sound.elim fun _ prepared => prepared.absent
  | finished merged => exact MergedPage.Ready.absent sound

theorem Sound.below (sound : errand.Sound before entries store) :
    ∀ id ∈ errand.replaced, id < store.nextId := by
  cases errand with
  | prepared job => exact sound.elim fun _ prepared => prepared.below
  | finished merged => exact MergedPage.Ready.below sound

/-- A merge waits on while its number does not become a page and its file is not touched. -/
theorem Sound.of_changes (sound : errand.Sound before entries store) (volumeSound : before.Sound)
    (goesOn : store.Continues entries others last) (changes : Changes paths NoFile before after)
    (absent : errand.target ∉ last.ids) (outside : ¬paths (store.pagePath errand.target)) :
    errand.Sound after others last := by
  cases errand with
  | prepared job =>
      obtain ⟨used, prepared⟩ := sound
      exact ⟨used, prepared.of_changes goesOn absent changes (fun _ _ none => none)
        (prepared.target ▸ outside)⟩
  | finished merged =>
      have ready : merged.Ready before entries store := sound
      exact ready.of_changes volumeSound goesOn absent changes (fun _ none => none.elim)
        (ready.path ▸ outside)

end Errand

/-- What is known of all merges that wait. -/
structure Underway (volume : Volume) (entries : PageId → List Fingerprint) (store : PageStore)
    (errands : List Errand) : Prop where
  each : ∀ errand ∈ errands, errand.Sound volume entries store
  apart : errands.Pairwise Errand.Apart

theorem Underway.of_changes {errands : List Errand}
    (underway : Underway before entries store errands) (volumeSound : before.Sound)
    (goesOn : store.Continues entries others last) (changes : Changes paths NoFile before after)
    (outside : ∀ errand ∈ errands,
      errand.target ∉ last.ids ∧ ¬paths (store.pagePath errand.target)) :
    Underway after others last errands where
  each errand mem :=
    (underway.each errand mem).of_changes volumeSound goesOn changes (outside errand mem).1
      (outside errand mem).2
  apart := underway.apart

/-- Where a merge stands among the others does not matter. -/
theorem underway_middle {front back : List Errand} :
    Underway before entries store (front ++ errand :: back) ↔
      Underway before entries store (front ++ back) ∧ errand.Sound before entries store ∧
        ∀ other ∈ front ++ back, errand.Apart other := by
  have apart_iff : (front ++ errand :: back).Pairwise Errand.Apart ↔
      (∀ other ∈ front ++ back, errand.Apart other) ∧ (front ++ back).Pairwise Errand.Apart :=
    (List.pairwise_middle Errand.Apart.symm).trans List.pairwise_cons
  have each_iff : (∀ other ∈ front ++ errand :: back, other.Sound before entries store) ↔
      errand.Sound before entries store ∧
        ∀ other ∈ front ++ back, other.Sound before entries store := by
    rw [← List.forall_mem_cons]
    exact forall_congr' fun other => imp_congr_left List.perm_middle.mem_iff
  constructor
  · rintro ⟨each, apart⟩
    exact ⟨⟨(each_iff.mp each).2, (apart_iff.mp apart).2⟩, (each_iff.mp each).1,
      (apart_iff.mp apart).1⟩
  · rintro ⟨⟨each, apart⟩, sound, apartFrom⟩
    exact ⟨each_iff.mpr ⟨sound, each⟩, apart_iff.mpr ⟨apartFrom, apart⟩⟩

/-! ## What a step leaves of a store -/

/-- As the files count their entries in words, no list may be too long. -/
theorem Sound.few (sound : store.Sound before entries) {appended : List Fingerprint}
    (among : ∀ fp ∈ store.contents entries, fp ∈ appended)
    (few : (sorted appended).length < countLimit) :
    ∀ id ∈ store.ids, (entries id).length < countLimit := by
  intro id mem
  obtain ⟨page, pageMem, rfl⟩ := List.mem_map.mp mem
  refine Nat.lt_of_le_of_lt ?_ few
  apply (sound.describes page pageMem).ascending.nodup.length_le_of_subset
  intro fp isEntry
  exact mem_sorted.mpr (among fp (mem_contents.mpr ⟨page, pageMem, isEntry⟩))

/-- The paths of live pages and of numbers that are still to be given out. -/
def Own (store : PageStore) (path : Path) : Prop :=
  ∃ id, (id ∈ store.ids ∨ store.nextId ≤ id) ∧ path = store.pagePath id

/-- What a step leaves of a store: at most one number is used up, pages that come have new
numbers, and the pages hold what they held and what was gained. -/
structure Advances (after : Volume) (entries : PageId → List Fingerprint) (store : PageStore)
    (gained : List Fingerprint) (others : PageId → List Fingerprint) (last : PageStore) : Prop
    extends Continues entries store others last where
  sound : last.Sound after others
  ids : ∀ id ∈ last.ids, id ∈ store.ids ∨ store.nextId ≤ id
  held : ∀ fp, fp ∈ last.contents others ↔ fp ∈ store.contents entries ∨ fp ∈ gained
  single : last.nextId ≤ store.nextId + 1

/-- A step on live pages and new numbers disturbs no merge that waits. -/
theorem Underway.advanced {errands : List Errand} {gained : List Fingerprint}
    (underway : Underway before entries store errands) (volumeSound : before.Sound)
    (changes : Changes store.Own NoFile before after)
    (advances : Advances after entries store gained others last) :
    Underway after others last errands := by
  apply underway.of_changes volumeSound advances.toContinues changes
  intro errand mem
  have sound := underway.each errand mem
  have foreign : ¬(errand.target ∈ store.ids ∨ store.nextId ≤ errand.target) := by
    rintro (live | new)
    · exact sound.absent live
    · exact Nat.not_lt.mpr new sound.numbered
  refine ⟨fun live => foreign (advances.ids _ live), ?_⟩
  rintro ⟨id, own, same⟩
  exact foreign (pagePath_inj.mp same ▸ own)

/-- Nothing but the handles that are open has changed. -/
theorem SameButHandles.advances (same : store.SameButHandles last)
    (sound : last.Sound after entries) : Advances after entries store [] entries last where
  toContinues := (same.extends entries).toContinues
  sound := sound
  ids id mem := Or.inl (same.ids ▸ mem)
  held fp := by rw [same.contents, List.mem_nil_iff, or_false]
  single := by rw [same.nextId]; exact Nat.le_succ _

/-- A number is given out, and nothing comes of it. -/
theorem advances_allocated (sound : Sound after entries { store with nextId := store.nextId + 1 }) :
    Advances after entries store [] entries { store with nextId := store.nextId + 1 } where
  toContinues := (extends_allocated fun _ _ => rfl).toContinues
  sound := sound
  ids _ mem := Or.inl mem
  held fp := by
    rw [List.mem_nil_iff, or_false]
    rfl
  single := Nat.le_refl _

/-- A page is added under the next number, which stands for the fingerprints appended. -/
theorem advances_appended (sound : store.Sound before entries) {fps : List Fingerprint}
    (lastSound : last.Sound after (assign entries store.nextId fps))
    (ids : last.ids = store.ids ++ [store.nextId]) (nextId : last.nextId = store.nextId + 1)
    (directory : last.directory = store.directory) (limits : last.limits = store.limits) :
    Advances after entries store fps (assign entries store.nextId fps) last where
  toContinues := (extends_appended ids nextId directory limits).toContinues
  sound := lastSound
  ids := by
    intro id mem
    rw [ids, List.mem_append, List.mem_singleton] at mem
    exact mem.imp_right fun same => Nat.le_of_eq same.symm
  held := by
    intro fp
    rw [sound.contents_appended ids, List.mem_append]
  single := Nat.le_of_eq nextId

/-- Appending brings the fingerprints appended, or nothing. -/
theorem append_advances (volumeSound : before.Sound) (sound : store.Sound before entries)
    {fps : List Fingerprint} (ascending : Ascending fps) (room : store.nextId < numberLimit) :
    Keeping.Runs (append fps) store before store.Own NoFile
      (fun _ last after => ∃ others, Advances after entries store fps others last)
      fun last after => Advances after entries store [] entries last := by
  by_cases empty : fps = []
  · subst empty
    exact Keeping.Runs.pure ⟨entries, SameButHandles.advances rfl sound⟩
  · have appended := append_runs volumeSound sound empty ascending room
    have own (path : Path) (same : At (store.pagePath store.nextId) path) : store.Own path :=
      ⟨store.nextId, Or.inr (Nat.le_refl _), same⟩
    apply (appended.widen own fun _ _ none => none).mono
    · rintro _ last after _ ⟨lastSound, ids, nextId, directory, limits⟩
      exact ⟨_, advances_appended sound lastSound ids nextId directory limits⟩
    · rintro _ _ _ ⟨lastSound, rfl⟩
      exact advances_allocated lastSound

/-- Probing changes no page and tells what the pages hold. -/
theorem probe_advances (volumeSound : before.Sound) (sound : store.Sound before entries)
    (fp : Fingerprint) :
    Keeping.Runs (probe fp) store before store.Own NoFile
      (fun answer last after => Advances after entries store [] entries last ∧
        (answer = true ↔ fp ∈ store.contents entries))
      fun last after => Advances after entries store [] entries last :=
  (probe_runs volumeSound sound fp).ofNothing.mono
    (fun _ _ _ _ ⟨lastSound, same, decides⟩ => ⟨same.advances lastSound, decides⟩)
    fun _ _ _ ⟨lastSound, same⟩ => same.advances lastSound

/-- A merge that is prepared waits under the next number for pages that are live. -/
structure Waiting (after : Volume) (entries : PageId → List Fingerprint) (store : PageStore)
    (others : PageId → List Fingerprint) (last : PageStore) (job : CompactionJob) : Prop where
  sound : (Errand.prepared job).Sound after others last
  target : job.targetId = store.nextId
  live : ∀ id ∈ job.replaced, id ∈ store.ids

/-- What preparing a merge leaves, whether or not there is one to run. -/
def Prepares (after : Volume) (entries : PageId → List Fingerprint) (store last : PageStore)
    (job : Option CompactionJob) : Prop :=
  ∃ others, Advances after entries store [] others last ∧
    ∀ prepared, job = some prepared → Waiting after entries store others last prepared

/-- The number under which a merge is prepared stands for the entries of its pages. -/
theorem Sound.advances_offered (sound : store.Sound before entries) (volumeSound : before.Sound)
    {replaced : List PageId} {job : CompactionJob} (changes : Changes Nowhere NoFile before after)
    (live : ∀ id ∈ replaced, id ∈ store.ids)
    (offered : Offered before after entries store last replaced (some job)) :
    Advances after entries store [] (mergedEntries entries store replaced) last ∧
      Waiting after entries store (mergedEntries entries store replaced) last job := by
  obtain ⟨rfl, rfl, -, target, prepared⟩ := offered
  refine ⟨?_, ⟨_, prepared⟩, target, live⟩
  exact
    { toContinues :=
        (extends_allocated fun _ => mergedEntries_of_lt entries job.replaced).toContinues
      sound := sound.merging volumeSound changes job.replaced
      ids := fun _ mem => Or.inl mem
      held := by
        intro fp
        rw [List.mem_nil_iff, or_false, sound.contents_merging job.replaced]
      single := Nat.le_refl _ }

theorem Sound.prepares (sound : store.Sound before entries) (volumeSound : before.Sound)
    {replaced : List PageId} {job : Option CompactionJob}
    (changes : Changes Nowhere NoFile before after) (live : ∀ id ∈ replaced, id ∈ store.ids)
    (offered : Offered before after entries store last replaced job) :
    Prepares after entries store last job := by
  cases job with
  | none =>
      obtain ⟨rfl, -⟩ := offered
      exact ⟨entries, SameButHandles.advances rfl (sound.of_nothing volumeSound changes), nofun⟩
  | some job =>
      obtain ⟨advances, waiting⟩ := sound.advances_offered volumeSound changes live offered
      refine ⟨_, advances, ?_⟩
      rintro _ ⟨⟩
      exact waiting

theorem compactionJob_prepares (volumeSound : before.Sound) (sound : store.Sound before entries)
    (few : ∀ id ∈ store.ids, (entries id).length < countLimit) :
    Keeping.Runs compactionJob store before Nowhere NoFile
      (fun job last after => Prepares after entries store last job)
      fun last after => Advances after entries store [] entries last := by
  apply (compactionJob_runs volumeSound sound few).mono
  · intro job last after changes offered
    exact sound.prepares volumeSound changes (fun _ mem => mem) offered
  · rintro _ after changes rfl
    exact SameButHandles.advances rfl (sound.of_nothing volumeSound changes)

theorem tieredCompactionJob_prepares (volumeSound : before.Sound)
    (sound : store.Sound before entries)
    (few : ∀ id ∈ store.ids, (entries id).length < countLimit) (maxPages : Nat) :
    Keeping.Runs (tieredCompactionJob maxPages) store before Nowhere NoFile
      (fun job last after => Prepares after entries store last job)
      fun last after => Advances after entries store [] entries last := by
  apply (tieredCompactionJob_runs volumeSound sound few maxPages).mono
  · rintro job last after changes (⟨-, rfl, rfl⟩ | ⟨-, offered⟩)
    · exact ⟨entries, SameButHandles.advances rfl (sound.of_nothing volumeSound changes), nofun⟩
    · exact sound.prepares volumeSound changes (tieredChoice_sublist store.pages) offered
  · rintro _ after changes rfl
    exact SameButHandles.advances rfl (sound.of_nothing volumeSound changes)

/-- A result that is installed brings and loses no fingerprint. -/
theorem Installed.advances {merged : MergedPage} (installed : Installed entries store merged last after)
    (ready : merged.Ready before entries store) :
    store.Continues entries entries last ∧
      (∀ id ∈ last.ids, id ∈ store.ids ∨ id = merged.id) ∧
      ∀ fp, fp ∈ last.contents entries ↔ fp ∈ store.contents entries := by
  obtain ⟨-, ids, nextId, directory, limits⟩ := installed
  refine ⟨⟨directory, limits, Nat.le_of_eq nextId.symm, fun _ _ => rfl⟩, ?_, ?_⟩
  · intro id mem
    rw [ids, idsAfter] at mem
    split at mem
    · rw [List.mem_append, List.mem_singleton] at mem
      exact mem.imp_left fun kept => (List.mem_filter.mp kept).1
    · exact Or.inl mem
  · intro fp
    rw [contents, ids, mem_installed ready]

/-! ## What becomes of merges that wait -/

section

variable {errands : List Errand} {job : CompactionJob} {merged : MergedPage} {slot : Nat}

/-- A merge that was just prepared joins the others. -/
theorem Underway.joined (underway : Underway before entries store errands)
    (advanced : Underway after others last errands)
    (waiting : Waiting after entries store others last job) :
    Underway after others last (errands ++ [.prepared job]) := by
  have apart (other : Errand) (mem : other ∈ errands ++ []) :
      (Errand.prepared job).Apart other := by
    rw [List.append_nil] at mem
    have waits := underway.each other mem
    refine ⟨fun same => ?_, fun mem => ?_, fun mem => waits.absent (waiting.live _ mem)⟩
    · exact Nat.ne_of_gt waits.numbered (waiting.target.symm.trans same)
    · exact Nat.lt_irrefl _ (waiting.target ▸ waits.below _ mem)
  rw [← List.append_nil errands] at advanced
  exact underway_middle.mpr ⟨advanced, waiting.sound, apart⟩

/-- Writing the page of one merge disturbs no merge apart from it. -/
theorem Underway.besideTarget (underway : Underway before entries store errands)
    (volumeSound : before.Sound) (apart : ∀ other ∈ errands, errand.Apart other)
    (changes : Changes (At (store.pagePath errand.target)) NoFile before after) :
    Underway after entries store errands := by
  apply underway.of_changes volumeSound (Extends.refl entries store).toContinues changes
  intro other mem
  refine ⟨(underway.each other mem).absent, ?_⟩
  rw [At, pagePath_inj]
  exact (apart other mem).1.symm

/-- A merge that was run is apart from what it was apart from before. -/
theorem Errand.Apart.ran {other : Errand} (apart : (prepared job).Apart other)
    (id : merged.id = job.targetId) (replaced : merged.replaced = job.replaced) :
    (finished merged).Apart other := by
  have sameTarget : (finished merged).target = (prepared job).target := id
  have sameInputs : (finished merged).replaced = (prepared job).replaced := replaced
  rw [Apart, sameTarget, sameInputs]
  exact apart

/-- Taking in the result of one merge disturbs no merge apart from it. -/
theorem Underway.besideInstalled (underway : Underway before entries store errands)
    (volumeSound : before.Sound) (ready : merged.Ready before entries store)
    (apart : ∀ other ∈ errands, (Errand.finished merged).Apart other)
    (changes : Changes (store.Involved merged) NoFile before after)
    (installed : Installed entries store merged last after) :
    Underway after entries last errands := by
  obtain ⟨goesOn, ids, -⟩ := installed.advances ready
  apply underway.of_changes volumeSound goesOn changes
  intro other mem
  have waits := underway.each other mem
  obtain ⟨different, -, foreign⟩ := apart other mem
  constructor
  · intro live
    rcases ids _ live with old | same
    · exact waits.absent old
    · exact different same.symm
  · rintro ⟨id, involved, same⟩
    obtain rfl := pagePath_inj.mp same
    exact involved.elim (fun same => different same.symm) foreign

/-- Running one merge disturbs none of the others. -/
theorem Underway.besideRun {front back : List Errand}
    (underway : Underway before entries store (front ++ .prepared job :: back))
    (volumeSound : before.Sound) (changes : Changes (At job.target) NoFile before after) :
    Underway after entries store (front ++ back) := by
  obtain ⟨rest, ⟨used, prepared⟩, apart⟩ := underway_middle.mp underway
  exact rest.besideTarget volumeSound apart (prepared.target ▸ changes)

/-- A merge that was run waits on with its page written. -/
theorem Underway.finished (underway : Underway before entries store errands)
    (volumeSound : before.Sound) (here : errands[slot]? = some (.prepared job))
    (changes : Changes (At job.target) NoFile before after)
    (ready : merged.Ready after entries store) (id : merged.id = job.targetId)
    (replaced : merged.replaced = job.replaced) :
    Underway after entries store (errands.set slot (.finished merged)) := by
  obtain ⟨front, back, split, set, -⟩ := exists_split here
  rw [split] at underway
  obtain ⟨-, -, apart⟩ := underway_middle.mp underway
  rw [set]
  exact underway_middle.mpr ⟨underway.besideRun volumeSound changes, ready,
    fun errand mem => (apart errand mem).ran id replaced⟩

/-- A merge that could not be run is given up. -/
theorem Underway.givenUp (underway : Underway before entries store errands)
    (volumeSound : before.Sound) (here : errands[slot]? = some (.prepared job))
    (changes : Changes (At job.target) NoFile before after) :
    Underway after entries store (errands.eraseIdx slot) := by
  obtain ⟨front, back, split, -, erase⟩ := exists_split here
  rw [split] at underway
  rw [erase]
  exact underway.besideRun volumeSound changes

/-- A result that is installed leaves the other merges as they are. -/
theorem Underway.takenIn (underway : Underway before entries store errands)
    (volumeSound : before.Sound) (here : errands[slot]? = some (.finished merged))
    (changes : Changes (store.Involved merged) NoFile before after)
    (installed : Installed entries store merged last after) :
    Underway after entries last (errands.eraseIdx slot) := by
  obtain ⟨front, back, split, -, erase⟩ := exists_split here
  obtain ⟨rest, ready, apart⟩ := underway_middle.mp (split ▸ underway)
  rw [erase]
  exact rest.besideInstalled volumeSound ready apart changes installed

end

/-- Merging all pages at once brings and loses no fingerprint, whatever becomes of it. -/
theorem compact_advances (volumeSound : before.Sound) (sound : store.Sound before entries)
    (few : ∀ id ∈ store.ids, (entries id).length < countLimit)
    (room : store.nextId < numberLimit) :
    Keeping.Runs compact store before store.Own NoFile
      (fun _ last after => ∃ others, Advances after entries store [] others last)
      fun last after => ∃ others, Advances after entries store [] others last := by
  have prepares : Keeping.Runs compactionJob store before Nowhere NoFile
      (fun job last after => Prepares after entries store last job)
      fun last after => ∃ others, Advances after entries store [] others last :=
    (compactionJob_prepares volumeSound sound few).mono (fun _ _ _ _ good => good)
      fun _ _ _ bad => ⟨entries, bad⟩
  apply Keeping.Runs.bind prepares.ofNothing
  rintro job middle middleVolume changes ⟨others, advances, waiting⟩
  have middleSound := changes.sound volumeSound
  cases job with
  | none => exact Keeping.Runs.pure ⟨others, advances⟩
  | some job =>
      obtain ⟨⟨used, prepared⟩, target, live⟩ := waiting job rfl
      have own (id : PageId) (involved : id = job.targetId ∨ id ∈ job.replaced) (path : Path)
          (same : path = middle.pagePath id) : store.Own path := by
        refine ⟨id, ?_, same.trans (advances.pagePath id)⟩
        rcases involved with rfl | mem
        · exact Or.inr (Nat.le_of_eq target.symm)
        · exact Or.inl (live id mem)
      have runs := CompactionJob.run_runs middleSound advances.sound.isDir (target ▸ room) prepared
      have still (after : Volume) (more : Changes (At job.target) NoFile middleVolume after) :
          Advances after entries store [] others middle :=
        { advances with sound := advances.sound.of_target middleSound prepared more }
      have ran : Keeping.Runs (liftM job.run) middle middleVolume (At job.target) NoFile
          (fun merged last after => middle = last ∧ Changes (At job.target) NoFile middleVolume after ∧
            merged.Ready after others middle ∧ merged.id = job.targetId ∧
              merged.replaced = job.replaced)
          fun last after => ∃ others, Advances after entries store [] others last :=
        Keeping.Runs.lift (runs.mono fun _ _ more ends => ⟨rfl, more, ends⟩)
          fun after more => ⟨others, still after more⟩
      apply Keeping.Runs.bind (ran.widen
        (fun path same => own _ (Or.inl rfl) path (same.trans prepared.target)) fun _ _ none => none)
      rintro merged _ final - ⟨rfl, more, ready, id, replaced⟩
      have installs := install_runs (more.sound middleSound) (still final more).sound ready
      have involved (path : Path) : middle.Involved merged path → store.Own path := by
        rintro ⟨other, isInvolved, same⟩
        exact own other (id ▸ replaced ▸ isInvolved) path same
      have ends (last : PageStore) (after : Volume)
          (installed : Installed others middle merged last after) :
          ∃ others, Advances after entries store [] others last := by
        obtain ⟨goesOn, ids, held⟩ := installed.advances ready
        refine ⟨others, ?_⟩
        exact
          { toContinues := advances.toContinues.trans goesOn
            sound := installed.1
            ids := by
              intro other mem
              rcases ids other mem with live | rfl
              · exact advances.ids other live
              · exact Or.inr (Nat.le_of_eq (id.trans target).symm)
            held := fun fp => (held fp).trans (advances.held fp)
            single := installed.2.2.1 ▸ advances.single }
      apply (installs.widen involved fun _ _ none => none).mono
      · exact fun _ last after _ installed => ends last after installed
      · exact fun last after _ installed => ends last after installed

end

/-! ## Courses -/

/-- What a step appends. -/
def Move.added : Move → List Fingerprint
  | .append fps => fps
  | _ => []

namespace Bench

variable {before after : Volume} {entries others : PageId → List Fingerprint} {bench : Bench}
  {last : PageStore} {appended gained : List Fingerprint} {slot : Nat}

/-- What is known between two steps while nothing is refused. -/
structure Sound (volume : Volume) (entries : PageId → List Fingerprint)
    (appended : List Fingerprint) (bench : Bench) : Prop where
  tree : volume.Sound
  quiet : volume.Quiet
  store : bench.store.Sound volume entries
  held : ∀ fp, fp ∈ bench.store.contents entries ↔ fp ∈ appended
  underway : Underway volume entries bench.store bench.errands
  errors : bench.errors = []

/-- A store without pages holds nothing. -/
theorem Sound.ofEmpty {store : PageStore} (tree : before.Sound) (quiet : before.Quiet)
    (sound : store.Sound before entries) (pages : store.pages = []) :
    Sound before entries [] { store } where
  tree := tree
  quiet := quiet
  store := sound
  held := by simp [contents, ids, pages]
  underway := ⟨by simp, List.Pairwise.nil⟩
  errors := rfl

/-- What is known after a step that may use up one number. -/
def Goes (bench : Bench) (ended : Bench × Volume) (appended : List Fingerprint) : Prop :=
  ∃ others, ended.1.Sound ended.2 others appended ∧
    ended.1.store.nextId ≤ bench.store.nextId + 1

theorem Sound.stays (sound : bench.Sound before entries appended) :
    bench.Goes (bench, before) appended :=
  ⟨entries, sound, Nat.le_succ _⟩

theorem Sound.few (sound : bench.Sound before entries appended)
    (few : (sorted appended).length < countLimit) :
    ∀ id ∈ bench.store.ids, (entries id).length < countLimit :=
  PageStore.Sound.few sound.store (fun fp => (sound.held fp).mp) few

theorem Sound.advanced (sound : bench.Sound before entries appended)
    (changes : Changes bench.store.Own NoFile before after)
    (advances : Advances after entries bench.store gained others last) :
    Sound after others (appended ++ gained) { bench with store := last } where
  tree := changes.sound sound.tree
  quiet := changes.quiet sound.quiet
  store := advances.sound
  held fp := by rw [advances.held, sound.held, List.mem_append]
  underway := sound.underway.advanced sound.tree changes advances
  errors := sound.errors

/-- A merge that was prepared joins the others. -/
theorem Sound.joined (sound : bench.Sound before entries appended) {job : CompactionJob}
    (changes : Changes Nowhere NoFile before after)
    (advances : Advances after entries bench.store [] others last)
    (waiting : Waiting after entries bench.store others last job) :
    (bench.offered (.ok (some job)) last).Sound after others appended := by
  have ownChanges : Changes bench.store.Own NoFile before after :=
    changes.mono (fun _ none => none.elim) fun _ _ none => none
  have advanced := sound.advanced ownChanges advances
  rw [List.append_nil] at advanced
  exact { advanced with underway := sound.underway.joined advanced.underway waiting }

theorem Sound.offered (sound : bench.Sound before entries appended) {job : Option CompactionJob}
    (changes : Changes Nowhere NoFile before after)
    (prepares : Prepares after entries bench.store last job) :
    bench.Goes (bench.offered (.ok job) last, after) appended := by
  obtain ⟨others, advances, waiting⟩ := prepares
  cases job with
  | none =>
      have advanced := sound.advanced changes.ofNothing advances
      rw [List.append_nil] at advanced
      exact ⟨others, advanced, advances.single⟩
  | some job => exact ⟨others, sound.joined changes advances (waiting job rfl), advances.single⟩

/-- A merge that is run waits on with its page written. -/
theorem Sound.finished (sound : bench.Sound before entries appended) {job : CompactionJob}
    (here : bench.errands[slot]? = some (.prepared job)) (room : job.targetId < numberLimit) :
    ∃ merged after, job.run before = (.ok merged, after) ∧
      Changes (At job.target) NoFile before after ∧ merged.id = job.targetId ∧
      merged.replaced = job.replaced ∧
      (bench.ran slot (.ok merged)).Sound after entries appended := by
  obtain ⟨used, prepared⟩ := sound.underway.each _ (List.mem_of_getElem? here)
  have runs := CompactionJob.run_runs sound.tree sound.store.isDir room prepared
  obtain ⟨merged, after, ended, changes, ready, id, replaced⟩ := runs.of_quiet sound.quiet
  refine ⟨merged, after, ended, changes, id, replaced, ?_⟩
  exact
    { tree := changes.sound sound.tree
      quiet := changes.quiet sound.quiet
      store := sound.store.of_target sound.tree prepared changes
      held := sound.held
      underway := sound.underway.finished sound.tree here changes ready id replaced
      errors := sound.errors }

theorem Sound.ran (sound : bench.Sound before entries appended)
    (room : bench.store.nextId < numberLimit) (slot : Nat) :
    bench.Goes (bench.perform (.run slot) before) appended := by
  rcases run_or_idle bench slot before with ⟨job, here⟩ | idle
  · have numbered := (sound.underway.each _ (List.mem_of_getElem? here)).numbered
    obtain ⟨merged, after, ended, -, -, -, ranSound⟩ :=
      sound.finished here (Nat.lt_trans numbered room)
    rw [perform_run here ended]
    exact ⟨entries, ranSound, Nat.le_succ _⟩
  · rw [idle]
    exact sound.stays

/-- A result that is installed leaves the other merges as they are. -/
theorem Sound.takenIn (sound : bench.Sound before entries appended) {merged : MergedPage}
    (here : bench.errands[slot]? = some (.finished merged)) :
    merged.Ready before entries bench.store ∧
      ∃ last after, install merged bench.store before = ((.ok (), last), after) ∧
        Installed entries bench.store merged last after ∧
        (bench.installed slot (.ok ()) last).Sound after entries appended := by
  have ready : merged.Ready before entries bench.store :=
    sound.underway.each _ (List.mem_of_getElem? here)
  obtain ⟨_, last, after, ended, changes, installed⟩ :=
    (install_runs sound.tree sound.store ready).of_quiet sound.quiet
  obtain ⟨-, -, held⟩ := installed.advances ready
  refine ⟨ready, last, after, ended, installed, ?_⟩
  exact
    { tree := changes.sound sound.tree
      quiet := changes.quiet sound.quiet
      store := installed.1
      held := fun fp => (held fp).trans (sound.held fp)
      underway := sound.underway.takenIn sound.tree here changes installed
      errors := sound.errors }

theorem Sound.installed (sound : bench.Sound before entries appended) (slot : Nat) :
    bench.Goes (bench.perform (.install slot) before) appended := by
  rcases install_or_idle bench slot before with ⟨merged, here⟩ | idle
  · obtain ⟨-, last, after, ended, installed, installedSound⟩ := sound.takenIn here
    rw [perform_install here ended]
    exact ⟨entries, installedSound, Nat.le_succ_of_le (Nat.le_of_eq installed.2.2.1)⟩
  · rw [idle]
    exact sound.stays

/-- What is known between two steps is known after the next one. -/
theorem Sound.step (sound : bench.Sound before entries appended)
    (room : bench.store.nextId < numberLimit) (few : (sorted appended).length < countLimit)
    (move : Move) (ascending : Ascending move.added) :
    bench.Goes (bench.perform move before) (appended ++ move.added) := by
  have same := (List.append_nil appended).symm
  cases move with
  | append fps =>
      have listed : Ascending fps := ascending
      obtain ⟨_, last, after, ended, changes, others, advances⟩ :=
        (append_advances sound.tree sound.store listed room).of_quiet sound.quiet
      rw [perform_append ended]
      exact ⟨others, sound.advanced changes advances, advances.single⟩
  | prepare =>
      obtain ⟨job, last, after, ended, changes, prepares⟩ :=
        (compactionJob_prepares sound.tree sound.store (sound.few few)).of_quiet sound.quiet
      rw [perform_prepare ended]
      exact same ▸ sound.offered changes prepares
  | prepareTiered maxPages =>
      obtain ⟨job, last, after, ended, changes, prepares⟩ :=
        (tieredCompactionJob_prepares sound.tree sound.store (sound.few few) maxPages).of_quiet
          sound.quiet
      rw [perform_prepareTiered ended]
      exact same ▸ sound.offered changes prepares
  | run slot => exact same ▸ sound.ran room slot
  | install slot => exact same ▸ sound.installed slot
  | compact =>
      obtain ⟨_, last, after, ended, changes, others, advances⟩ :=
        (compact_advances sound.tree sound.store (sound.few few) room).of_quiet sound.quiet
      rw [perform_compact ended]
      exact ⟨others, sound.advanced changes advances, advances.single⟩
  | probe fp =>
      obtain ⟨_, last, after, ended, changes, advances, -⟩ :=
        (probe_advances sound.tree sound.store fp).of_quiet sound.quiet
      rw [perform_probe ended]
      exact ⟨entries, sound.advanced changes advances, advances.single⟩

/-- A course can be taken from some number on: what it appends is in order, and neither numbers nor
the counts of files run out. -/
structure Possible (moves : List Move) (nextId : PageId) (appended : List Fingerprint) : Prop where
  ascending : ∀ fps, .append fps ∈ moves → Ascending fps
  room : nextId + moves.length ≤ numberLimit
  few : (sorted (appended ++ moves.flatMap Move.added)).length < countLimit

namespace Possible

variable {move : Move} {moves : List Move} {nextId next : PageId}

/-- What the first step needs. -/
theorem first (possible : Possible (move :: moves) nextId appended) :
    nextId < numberLimit ∧ (sorted appended).length < countLimit ∧ Ascending move.added := by
  have fewer : (sorted appended).length ≤
      (sorted (appended ++ (move :: moves).flatMap Move.added)).length := by
    apply (sorted_ascending _).nodup.length_le_of_subset
    intro fp mem
    rw [mem_sorted] at mem ⊢
    exact List.mem_append_left _ mem
  refine ⟨?_, Nat.lt_of_le_of_lt fewer possible.few, ?_⟩
  · exact Nat.lt_of_lt_of_le (Nat.lt_add_of_pos_right (Nat.succ_pos _)) possible.room
  · cases move with
    | append fps => exact possible.ascending fps List.mem_cons_self
    | _ => exact Ascending.nil

/-- The steps behind the first one, which uses up one number at most. -/
theorem rest (possible : Possible (move :: moves) nextId appended) (single : next ≤ nextId + 1) :
    Possible moves next (appended ++ move.added) where
  ascending fps mem := possible.ascending fps (List.mem_cons_of_mem _ mem)
  room := Nat.le_trans (Nat.add_le_add_right single moves.length)
    (Nat.le_trans (Nat.le_of_eq (Nat.succ_add_eq_add_succ _ _)) possible.room)
  few := by
    have few := possible.few
    rw [List.flatMap_cons, ← List.append_assoc] at few
    exact few

end Possible

/-- What each step keeps, using up one number at most, is kept by any course as long as numbers do
not run out. -/
theorem run_keeps {known : Bench → Volume → List Fingerprint → Prop}
    (step : ∀ bench before appended move, known bench before appended →
      bench.store.nextId < numberLimit → (sorted appended).length < countLimit →
      Ascending (Move.added move) →
      known (bench.perform move before).1 (bench.perform move before).2 (appended ++ move.added) ∧
        (bench.perform move before).1.store.nextId ≤ bench.store.nextId + 1)
    (start : known bench before appended) (moves : List Move)
    (ascending : ∀ fps, .append fps ∈ moves → Ascending fps)
    (room : bench.store.nextId + moves.length ≤ numberLimit)
    (few : (sorted (appended ++ moves.flatMap Move.added)).length < countLimit) :
    known (Bench.run moves bench before).1 (Bench.run moves bench before).2
      (appended ++ moves.flatMap Move.added) := by
  induction moves generalizing bench before appended with
  | nil => exact (List.append_nil appended).symm ▸ start
  | cons move moves ih =>
      have possible : Possible (move :: moves) bench.store.nextId appended := ⟨ascending, room, few⟩
      obtain ⟨firstRoom, firstFew, firstAscending⟩ := possible.first
      obtain ⟨next, single⟩ := step bench before appended move start firstRoom firstFew firstAscending
      have rest := possible.rest single
      rw [List.flatMap_cons, ← List.append_assoc]
      exact ih next rest.ascending rest.room rest.few

/-- What is known at first is known after any course, as long as numbers do not run out. -/
theorem Sound.run (sound : bench.Sound before entries appended) (moves : List Move)
    (ascending : ∀ fps, .append fps ∈ moves → Ascending fps)
    (room : bench.store.nextId + moves.length ≤ numberLimit)
    (few : (sorted (appended ++ moves.flatMap Move.added)).length < countLimit) :
    ∃ others, (Bench.run moves bench before).1.Sound (Bench.run moves bench before).2 others
      (appended ++ moves.flatMap Move.added) := by
  refine @run_keeps _ _ _ (fun bench before appended =>
    ∃ entries, bench.Sound before entries appended) ?_ ⟨entries, sound⟩ moves ascending room few
  rintro bench before appended move ⟨entries, sound⟩ room few ascending
  obtain ⟨others, next, single⟩ := sound.step room few move ascending
  exact ⟨⟨others, next⟩, single⟩

end Bench

/-- A volume, and a directory in which a store can be created. -/
structure Site where
  volume : Volume
  directory : Path
  limits : StoreLimits
  /-- Settings without a stride are refused. -/
  stride : 0 < limits.stride
  sound : volume.Sound
  creatable : Creatable volume directory
  free : ∀ id, volume.binding? (directory.child (pageName id)) = none

namespace Site

/-- Create the store. -/
def create (site : Site) : Except Error PageStore × Volume :=
  PageStore.create site.directory site.limits site.volume

/-- The new store, or any if it could not be created. -/
def begun (site : Site) : Bench × Volume :=
  match site.create with
  | (.ok store, before) => ({ store }, before)
  | (.error _, before) => (default, before)

/-- The store and the merges on their way after a course. -/
def after (site : Site) (moves : List Move) : Bench × Volume :=
  Bench.run moves site.begun.1 site.begun.2

/-- Sixteen index entries and one open handle, on an empty volume. -/
def small : Site where
  volume := {}
  directory := []
  limits :=
    { stride := 2
      durable := false
      indexEntries := 16
      openHandles := 1 }
  stride := by decide
  sound := empty_sound _
  creatable :=
    { named := by simp
      noFile := by simp }
  free := by simp

variable {site : Site}

/-- Only a store whose handles and blocks can be set aside is created. -/
theorem fits_of_created (created : site.create.1.isOk = true) :
    HandleCache.isRepresentable site.limits.openHandles = true ∧
      site.limits.stride * entryLength ≤ maxBlockBytes := by
  rw [create, PageStore.create, bind_apply] at created
  split at created
  · split at created
    · contradiction
    · split at created
      · contradiction
      · rename_i representable small
        exact ⟨by simpa using representable, Nat.not_lt.mp small⟩
  · contradiction

/-- A new store has no pages. -/
theorem begun_new (created : site.create.1.isOk = true) :
    ∃ store before, site.begun = ({ store }, before) ∧
      Changes (Missing site.volume site.directory) NoFile site.volume before ∧
      store.Sound before (fun _ => []) ∧ store.pages = [] ∧ store.nextId = 0 ∧
      store.limits = site.limits ∧ store.directory = site.directory := by
  obtain ⟨representable, small⟩ := fits_of_created created
  have runs := @create_runs site.volume (fun _ => []) site.sound _ _ site.creatable representable
    small site.stride site.free
  rcases runs.cases with ⟨store, before, result, changes, sound, directory, pages, nextId, -,
    limits⟩ | ⟨error, before, result, -⟩
  · refine ⟨store, before, ?_, changes, sound, pages, nextId, limits, directory⟩
    rw [Site.begun, Site.create, result]
  · rw [Site.create, result] at created
    contradiction

/-- A new store holds nothing, and no merge is on its way. -/
theorem begun_sound (quiet : site.volume.Quiet) (created : site.create.1.isOk = true) :
    ∃ entries, site.begun.1.Sound site.begun.2 entries [] ∧ site.begun.1.store.nextId = 0 := by
  obtain ⟨store, before, begun, changes, sound, pages, nextId, -⟩ := begun_new created
  rw [begun]
  exact ⟨fun _ => [], .ofEmpty (changes.sound site.sound) (changes.quiet quiet) sound pages, nextId⟩

end Site

/-- Whatever merges of whatever pages are prepared, run and installed in whatever order: nothing
fails, the pages hold exactly what was appended, and the store counts their entries.  Page
numbers and the counts of files are words. -/
theorem probe_right (site : Site) (quiet : site.volume.Quiet)
    (created : site.create.1.isOk = true) (moves : List Move)
    (ascending : ∀ fps, .append fps ∈ moves → Ascending fps)
    (numbered : moves.length ≤ UInt64.size)
    (few : (sorted (moves.flatMap Move.added)).length < UInt64.size) :
    (site.after moves).1.errors = [] ∧
      (site.after moves).1.store.entries =
        total (·.count) (site.after moves).1.store.pages ∧
      ∀ fp, (probe fp (site.after moves).1.store (site.after moves).2).1.1 =
        .ok (decide (fp ∈ moves.flatMap Move.added)) := by
  obtain ⟨entries, begun, nextId⟩ := Site.begun_sound quiet created
  have room : site.begun.1.store.nextId + moves.length ≤ numberLimit := by
    rw [nextId, Nat.zero_add]
    exact Nat.le_trans numbered (by decide)
  obtain ⟨others, sound⟩ := begun.run moves ascending room few
  refine ⟨sound.errors, ?_, fun fp => ?_⟩
  · have counted := sound.store.counted
    rw [contents, ids, ← total_count sound.store.describes] at counted
    exact counted
  · obtain ⟨answer, last, after, ended, -, -, -, decides⟩ :=
      (probe_runs sound.tree sound.store fp).of_quiet sound.quiet
    have found : (probe fp (site.after moves).1.store (site.after moves).2).1.1 = .ok answer := by
      rw [Site.after, ended]
    rw [found]
    congr 1
    rw [Bool.eq_iff_iff, decides, sound.held, decide_eq_true_iff]
    rfl

/-- Two merges of the same two pages: the second one is installed first, so that the first one
comes too late. -/
theorem probe_right_overlapping :
    let site := Site.small
    let moves := [.append [1, 3], .append [2, 3], .prepare, .prepareTiered 1, .append [5],
      .run 0, .run 1, .install 1, .install 0]
    site.volume.Quiet ∧ site.create.1.isOk = true ∧
      (∀ fps, .append fps ∈ moves → Ascending fps) ∧ moves.length ≤ UInt64.size ∧
      (sorted (moves.flatMap Move.added)).length < UInt64.size ∧
      (site.after moves).1.errors = [] ∧
      (probe 3 (site.after moves).1.store (site.after moves).2).1.1 =
        .ok (decide (3 ∈ moves.flatMap Move.added)) := by
  intro site moves
  have quiet : site.volume.Quiet := fun _ _ => rfl
  have created : site.create.1.isOk = true := by decide +kernel
  have ascending (fps : List Fingerprint) (mem : .append fps ∈ moves) : Ascending fps := by
    have each : ∀ move ∈ moves, Ascending move.added := by
      simp only [moves, List.forall_mem_cons, Move.added, Ascending]
      decide
    exact each _ mem
  have numbered : moves.length ≤ UInt64.size := by decide
  have few : (sorted (moves.flatMap Move.added)).length < UInt64.size := by decide +kernel
  have right := probe_right site quiet created moves ascending numbered few
  exact ⟨quiet, created, ascending, numbered, few, right.1, right.2.2 3⟩

end PageStore

end FingerprintSet
