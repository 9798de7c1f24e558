import FingerprintSet.Proofs.PageStore.Handles
import FingerprintSet.Proofs.PageStore.Jobs
import FingerprintSet.Proofs.Storage.Deciding

/-!
# The files of a store

Which files there are after a course, and what is in them.  A ledger is kept beside the course: it
tells what each number stands for by what was appended and by which pages were merged, and looks at
no file.  While nothing is refused, the numbers in it are the numbers that the store has given out,
each of them once, and the directory has got just the files of the pages and of the merges that
were run and wait to be installed.

What is known between two steps goes on from one step to the next in the same way for all steps: a
step names the numbers whose files it touches, and only of these it says what becomes of them.
-/

namespace FingerprintSet

open Storage Volume SortedFile

namespace PageStore

/-- The numbers that were given out, in turn, each with the fingerprints that it stands for. -/
abbrev Ledger := List (PageId × List Fingerprint)

namespace Ledger

variable {ledger : Ledger} {nextId : PageId}

def numbers (ledger : Ledger) : List PageId :=
  ledger.map (·.1)

/-- The fingerprints that a number stands for. -/
def entries (ledger : Ledger) (id : PageId) : List Fingerprint :=
  (ledger.lookup id).getD []

theorem numbers_snoc (numbers : ledger.numbers = List.range nextId) (fps : List Fingerprint) :
    Ledger.numbers (ledger ++ [(nextId, fps)]) = List.range (nextId + 1) := by
  rw [Ledger.numbers, List.map_append, List.range_succ, ← numbers]
  rfl

theorem entries_snoc (numbers : ledger.numbers = List.range nextId) (fps : List Fingerprint) :
    Ledger.entries (ledger ++ [(nextId, fps)]) = assign ledger.entries nextId fps := by
  funext id
  rw [entries, List.lookup_append]
  by_cases same : id = nextId
  · subst same
    have unlisted : ledger.lookup id = none := by
      rw [List.lookup_eq_none_iff]
      intro item mem
      have listed : item.1 ∈ ledger.numbers := List.mem_map_of_mem mem
      rw [numbers, List.mem_range] at listed
      exact bne_iff_ne.mpr (Nat.ne_of_gt listed)
    rw [unlisted, assign_self, Option.none_or, List.lookup_cons_self, Option.getD_some]
  · rw [assign_ne _ _ same, List.lookup_cons, beq_false_of_ne same, List.lookup_nil, Option.or_none]
    rfl

end Ledger

/-- The page that a merge has written. -/
def Errand.output : Errand → Option PageId
  | prepared _ => none
  | finished merged => some merged.id

theorem Errand.target_of_output {errand : Errand} {id : PageId}
    (output : errand.output = some id) : errand.target = id := by
  cases errand with
  | prepared job => contradiction
  | finished merged => exact Option.some.inj output

/-- What merges are entered with: all that is on their pages. -/
def Ledger.merging (ledger : Ledger) (errands : List Errand) : Ledger :=
  errands.map fun errand => (errand.target, sorted (errand.replaced.flatMap ledger.entries))

/-- What a step adds to the ledger: what it appended, or what is on the pages that it merges. -/
def Move.brings (ledger : Ledger) (bench after : Bench) : Move → Ledger
  | .append fps => (after.store.ids.drop bench.store.pageCount).map fun id => (id, fps)
  | .compact =>
      if bench.store.pageCount < 2 then
        []
      else
        after.store.ids.map fun id => (id, sorted (bench.store.ids.flatMap ledger.entries))
  | .prepare | .prepareTiered _ | .run _ | .install _ | .probe _ =>
      ledger.merging (after.errands.drop bench.errands.length)

theorem merging_none {ledger : Ledger} {bench after : Bench}
    (fewer : after.errands.length ≤ bench.errands.length) :
    ledger.merging (after.errands.drop bench.errands.length) = [] := by
  rw [List.drop_of_length_le fewer]
  rfl

namespace Bench

/-- The numbers of the pages and of the merges that were run. -/
def filed (bench : Bench) : List PageId :=
  bench.store.ids ++ bench.errands.filterMap Errand.output

/-- The ledger after a course. -/
def ledger (bench : Bench) : List Move → Volume → Ledger → Ledger
  | [], _, ledger => ledger
  | move :: moves, before, ledger =>
      let ended : Bench × Volume := bench.perform move before
      ended.1.ledger moves ended.2 (ledger ++ move.brings ledger bench ended.1)

variable {before after : Volume} {entries : PageId → List Fingerprint} {bench next : Bench}
  {appended : List Fingerprint} {id : PageId}

theorem mem_filed : id ∈ bench.filed ↔
    id ∈ bench.store.ids ∨ ∃ errand ∈ bench.errands, errand.output = some id := by
  rw [filed, List.mem_append, List.mem_filterMap]

/-- Each number has a file of its own. -/
theorem Sound.filed_nodup (sound : bench.Sound before entries appended) : bench.filed.Nodup := by
  have outputs : (bench.errands.filterMap Errand.output).Nodup := by
    rw [List.Nodup, List.pairwise_filterMap]
    apply sound.underway.apart.imp
    intro first second apart firstId firstOut secondId secondOut
    rw [← Errand.target_of_output firstOut, ← Errand.target_of_output secondOut]
    exact apart.1
  apply List.nodup_append'.mpr ⟨sound.store.distinct, outputs, ?_⟩
  intro id live written
  obtain ⟨errand, mem, output⟩ := List.mem_filterMap.mp written
  exact (sound.underway.each errand mem).absent (Errand.target_of_output output ▸ live)

/-- What a file holds is in order. -/
theorem Sound.holds (sound : bench.Sound before entries appended) (mem : id ∈ bench.filed) :
    (∃ file, Holds before (bench.store.pagePath id) .page (entries id) file) ∧
      Ascending (entries id) := by
  rcases mem_filed.mp mem with live | ⟨_ | merged, errandMem, output⟩
  · obtain ⟨page, pageMem, rfl⟩ := List.mem_map.mp live
    rw [← sound.store.placed page pageMem]
    exact ⟨sound.store.filed page pageMem, (sound.store.describes page pageMem).ascending⟩
  · contradiction
  · obtain rfl := Option.some.inj output
    have ready : merged.Ready before entries bench.store := sound.underway.each _ errandMem
    rw [← ready.path]
    exact ⟨ready.filed, ready.ascending⟩

/-- A merge that is prepared, run and installed with nothing in between leaves no trace among those
that wait. -/
theorem installed_at_once (bench : Bench) (job : CompactionJob) (merged : MergedPage)
    (middle last : PageStore) :
    ((bench.offered (.ok (some job)) middle).ran bench.errands.length (.ok merged)).installed
      bench.errands.length (.ok ()) last = { bench with store := last } := by
  have cleared : ((bench.errands ++ [Errand.prepared job]).set bench.errands.length
      (.finished merged)).eraseIdx bench.errands.length = bench.errands := by
    rw [List.eraseIdx_set_eq, List.eraseIdx_append_of_length_le (Nat.le_refl _), Nat.sub_self]
    exact List.append_nil _
  rw [installed, worked, ran, offered, cleared]

end Bench

/-! ## What is known between two steps -/

/-- The files, the ledger and the handles fit the store, and no other name in its directory was
touched. -/
structure Accounted (site : Site) (volume : Volume) (ledger : Ledger)
    (appended : List Fingerprint) (bench : Bench) : Prop where
  sound : bench.Sound volume ledger.entries appended
  directory : bench.store.directory = site.directory
  numbers : ledger.numbers = List.range bench.store.nextId
  filed : ∀ id, volume.binding? (bench.store.pagePath id) ≠ none → id ∈ bench.filed
  others : ∀ name, (∀ id, name ≠ pageName id) →
    volume.binding? (site.directory.child name) = site.volume.binding? (site.directory.child name)
  opens : ∀ item ∈ bench.store.handles.entries,
    item.1 ∈ bench.store.ids ∧ OpenOn volume (bench.store.pagePath item.1) item.2

/-- What is known after a step that may use up one number. -/
def Accounts (site : Site) (ledger : Ledger) (appended : List Fingerprint) (bench : Bench)
    (move : Move) (ended : Bench × Volume) : Prop :=
  Accounted site ended.2 (ledger ++ move.brings ledger bench ended.1) (appended ++ move.added)
      ended.1 ∧
    ended.1.store.nextId ≤ bench.store.nextId + 1

theorem Accounts.of_nothing {site : Site} {ledger : Ledger} {appended : List Fingerprint}
    {bench next : Bench} {move : Move} {after : Volume}
    (accounted : Accounted site after ledger appended next)
    (brings : move.brings ledger bench next = []) (added : move.added = [])
    (single : next.store.nextId ≤ bench.store.nextId + 1) :
    Accounts site ledger appended bench move (next, after) := by
  rw [Accounts, brings, added, List.append_nil, List.append_nil]
  exact ⟨accounted, single⟩

section

variable {before after : Volume} {store last middle : PageStore}

theorem compact_none (prepared : compactionJob store before = ((.ok none, last), after)) :
    compact store before = ((.ok (), last), after) := by
  rw [compact, Keeping.bind_apply, prepared]
  rfl

theorem compact_some {first second : Volume} {job : CompactionJob} {merged : MergedPage}
    (prepared : compactionJob store before = ((.ok (some job), middle), first))
    (ran : job.run first = (.ok merged, second))
    (installed : install merged middle second = ((.ok (), last), after)) :
    compact store before = ((.ok (), last), after) := by
  rw [compact, Keeping.bind_apply, prepared]
  dsimp only
  rw [Keeping.bind_apply, Keeping.lift_apply, ran]
  exact installed

end

namespace Accounted

variable {site : Site} {before after : Volume} {ledger longer : Ledger}
  {appended gained : List Fingerprint} {bench next : Bench} {last : PageStore} {slot : Nat}

/-- A step that touches the files of some numbers: the files of other numbers stay, and only they
are still open. -/
theorem moved (accounted : Accounted site before ledger appended bench) {touched : PageId → Prop}
    (changes : Changes (bench.store.FilesOf touched) NoFile before after)
    (sound : next.Sound after longer.entries gained)
    (directory : next.store.directory = bench.store.directory)
    (numbers : longer.numbers = List.range next.store.nextId)
    (left : ∀ id, touched id → after.binding? (bench.store.pagePath id) ≠ none → id ∈ next.filed)
    (kept : ∀ id ∈ bench.filed, ¬touched id → id ∈ next.filed)
    (opens : ∀ item ∈ next.store.handles.entries, item.1 ∈ next.store.ids ∧ ¬touched item.1 ∧
      OpenOn before (bench.store.pagePath item.1) item.2) :
    Accounted site after longer gained next where
  sound := sound
  directory := directory.trans accounted.directory
  numbers := numbers
  filed := by
    intro id bound
    rw [pagePath_eq, directory, ← pagePath_eq] at bound
    by_cases inside : touched id
    · exact left id inside bound
    · rw [changes.entry_eq _ (filesOf_pagePath.not.mpr inside)] at bound
      exact kept id (accounted.filed id bound) inside
  others := by
    intro name foreign
    rw [changes.entry_eq, accounted.others name foreign]
    rintro ⟨id, -, same⟩
    rw [pagePath_eq, accounted.directory, Path.child_inj] at same
    exact foreign id same
  opens := by
    intro item mem
    obtain ⟨live, untouched, file, handle, bound⟩ := opens item mem
    refine ⟨live, file, handle, ?_⟩
    rw [pagePath_eq, directory, ← pagePath_eq,
      changes.entry_eq _ (filesOf_pagePath.not.mpr untouched), bound]

/-- A step that touches no file. -/
theorem unmoved (accounted : Accounted site before ledger appended bench)
    (changes : Changes Nowhere NoFile before after) (sound : next.Sound after longer.entries gained)
    (directory : next.store.directory = bench.store.directory)
    (numbers : longer.numbers = List.range next.store.nextId)
    (kept : ∀ id ∈ bench.filed, id ∈ next.filed)
    (opens : ∀ item ∈ next.store.handles.entries, item.1 ∈ next.store.ids ∧
      OpenOn before (bench.store.pagePath item.1) item.2) :
    Accounted site after longer gained next := by
  have none : Changes (bench.store.FilesOf fun _ => False) NoFile before after := changes.ofNothing
  refine accounted.moved none sound directory numbers (fun _ none => none.elim)
    (fun id mem _ => kept id mem) fun item mem => ?_
  obtain ⟨live, openOn⟩ := opens item mem
  exact ⟨live, not_false, openOn⟩

/-- A step that only looks at the store. -/
theorem looked (accounted : Accounted site before ledger appended bench) {move : Move}
    (looked : LookedAt before after bench.store last) (lastSound : last.Sound after ledger.entries)
    (brings : move.brings ledger bench { bench with store := last } = [])
    (added : move.added = []) :
    Accounts site ledger appended bench move ({ bench with store := last }, after) := by
  have sound := accounted.sound
  have same := looked.same
  have next := sound.advanced looked.changes.ofNothing (same.advances lastSound)
  rw [List.append_nil] at next
  refine .of_nothing ?_ brings added (Nat.le_succ_of_le (Nat.le_of_eq same.nextId))
  refine accounted.unmoved looked.changes next same.directory
    (same.nextId ▸ accounted.numbers) ?_ ?_
  · intro id mem
    rw [Bench.mem_filed] at mem ⊢
    exact mem.imp_left fun live => same.ids.symm ▸ live
  · intro item mem
    rw [same.ids]
    rcases looked.handles item mem with old | ⟨page, pageMem, number, openOn⟩
    · exact accounted.opens item old
    · rw [sound.store.placed page pageMem, number] at openOn
      exact ⟨number ▸ List.mem_map_of_mem pageMem, openOn⟩

/-- A step that changes nothing. -/
theorem stays (accounted : Accounted site before ledger appended bench) {move : Move}
    (brings : move.brings ledger bench bench = []) (added : move.added = []) :
    Accounts site ledger appended bench move (bench, before) :=
  accounted.looked (.unchanged (.refl before)) accounted.sound.store brings added

theorem appends (accounted : Accounted site before ledger appended bench) {fps : List Fingerprint}
    (ascending : Ascending fps) (room : bench.store.nextId < numberLimit) :
    Accounts site ledger appended bench (.append fps) (bench.perform (.append fps) before) := by
  have sound := accounted.sound
  by_cases empty : fps = []
  · subst empty
    have ended : append [] bench.store before = ((.ok (), bench.store), before) := rfl
    rw [Bench.perform_append ended]
    apply accounted.stays _ rfl
    rw [Move.brings, List.map_eq_nil_iff, List.drop_eq_nil_iff]
    exact Nat.le_of_eq (length_ids _)
  · obtain ⟨_, last, after, ended, changes, lastSound, ids, nextId, directory, limits⟩ :=
      (append_runs sound.tree sound.store empty ascending room).of_quiet sound.quiet
    have handles : last.handles = bench.store.handles := by
      have same := @append_handles bench.store fps before
      rw [ended] at same
      exact same
    have own (path : Path) (same : At (bench.store.pagePath bench.store.nextId) path) :
        bench.store.Own path := ⟨_, Or.inr (Nat.le_refl _), same⟩
    have advances := advances_appended sound.store lastSound ids nextId directory limits
    have next := sound.advanced (changes.mono own fun _ _ none => none) advances
    rw [← Ledger.entries_snoc accounted.numbers] at next
    have brings : (Move.append fps).brings ledger bench { bench with store := last } =
        [(bench.store.nextId, fps)] := by
      rw [Move.brings, ids, ← length_ids, List.drop_left]
      rfl
    rw [Bench.perform_append ended]
    refine ⟨?_, advances.single⟩
    have touches : Changes (bench.store.FilesOf (· = bench.store.nextId)) NoFile before after :=
      changes.mono (fun _ same => ⟨_, rfl, same⟩) fun _ _ none => none
    show Accounted site after (ledger ++ (Move.append fps).brings ledger bench
      { bench with store := last }) (appended ++ fps) { bench with store := last }
    rw [brings]
    refine accounted.moved touches next directory ?_ ?_ ?_ ?_
    · rw [nextId]
      exact Ledger.numbers_snoc accounted.numbers fps
    · rintro id rfl -
      rw [Bench.mem_filed, ids]
      exact Or.inl List.mem_concat_self
    · intro id mem _
      rw [Bench.mem_filed, ids]
      exact (Bench.mem_filed.mp mem).imp_left (List.mem_append_left _)
    · intro item mem
      rw [handles] at mem
      obtain ⟨live, openOn⟩ := accounted.opens item mem
      exact ⟨ids ▸ List.mem_append_left _ live, Nat.ne_of_lt (sound.store.id_lt live), openOn⟩

/-- A merge that is prepared is for the pages that its number is entered for. -/
theorem offered (accounted : Accounted site before ledger appended bench) {job : CompactionJob}
    {replaced : List PageId} (changes : Changes Nowhere NoFile before after)
    (live : ∀ id ∈ replaced, id ∈ bench.store.ids)
    (offered : Offered before after ledger.entries bench.store last replaced (some job)) :
    Accounted site after (ledger ++ [(job.targetId, sorted (job.replaced.flatMap ledger.entries))])
      appended (bench.offered (.ok (some job)) last) := by
  have sound := accounted.sound
  obtain ⟨advances, waiting⟩ :=
    sound.store.advances_offered sound.tree changes live offered
  have next := sound.joined changes advances waiting
  obtain ⟨rfl, rfl, -, target, -⟩ := offered
  rw [mergedEntries, ← Ledger.entries_snoc accounted.numbers] at next
  rw [target]
  refine accounted.unmoved changes next rfl (Ledger.numbers_snoc accounted.numbers _) ?_
    accounted.opens
  intro id mem
  rw [Bench.mem_filed] at mem ⊢
  rcases mem with live | ⟨errand, errandMem, output⟩
  · exact Or.inl live
  · exact Or.inr ⟨errand, List.mem_append_left _ errandMem, output⟩

theorem prepares (accounted : Accounted site before ledger appended bench)
    {job : Option CompactionJob} {replaced : List PageId}
    (changes : Changes Nowhere NoFile before after)
    (live : ∀ id ∈ replaced, id ∈ bench.store.ids)
    (offered : Offered before after ledger.entries bench.store last replaced job) :
    Accounts site ledger appended bench .prepare (bench.offered (.ok job) last, after) := by
  cases job with
  | none =>
      obtain ⟨rfl, -⟩ := offered
      exact accounted.looked (.unchanged changes)
        (accounted.sound.store.of_nothing accounted.sound.tree changes)
        (merging_none (Nat.le_refl _)) rfl
  | some job =>
      have next := accounted.offered changes live offered
      have brings : Move.prepare.brings ledger bench (bench.offered (.ok (some job)) last) =
          [(job.targetId, sorted (job.replaced.flatMap ledger.entries))] := by
        rw [Move.brings, Bench.offered, List.drop_left]
        rfl
      obtain ⟨rfl, -⟩ := offered
      have added : Move.prepare.added = [] := rfl
      rw [Accounts, brings, added, List.append_nil]
      exact ⟨next, Nat.le_refl _⟩

/-- A merge that is run gets its file. -/
theorem finished (accounted : Accounted site before ledger appended bench) {job : CompactionJob}
    (here : bench.errands[slot]? = some (.prepared job)) (room : job.targetId < numberLimit) :
    ∃ merged after, job.run before = (.ok merged, after) ∧ merged.id = job.targetId ∧
      merged.replaced = job.replaced ∧
      Accounted site after ledger appended (bench.ran slot (.ok merged)) := by
  have sound := accounted.sound
  obtain ⟨used, prepared⟩ := sound.underway.each _ (List.mem_of_getElem? here)
  obtain ⟨merged, after, ended, changes, id, replaced, next⟩ := sound.finished here room
  obtain ⟨front, back, split, set, -⟩ := exists_split here
  refine ⟨merged, after, ended, id, replaced, ?_⟩
  have touches : Changes (bench.store.FilesOf (· = job.targetId)) NoFile before after :=
    changes.mono (fun _ same => ⟨_, rfl, same.trans prepared.target⟩) fun _ _ none => none
  refine accounted.moved touches next rfl accounted.numbers ?_ ?_ ?_
  · rintro _ rfl -
    refine Bench.mem_filed.mpr (Or.inr ⟨.finished merged, ?_, congrArg some id⟩)
    rw [Bench.ran, set]
    exact List.mem_append_right _ List.mem_cons_self
  · intro other mem _
    rw [Bench.mem_filed] at mem ⊢
    rcases mem with live | ⟨errand, errandMem, output⟩
    · exact Or.inl live
    · refine Or.inr ⟨errand, ?_, output⟩
      rw [split, List.mem_append, List.mem_cons] at errandMem
      rw [Bench.ran, set, List.mem_append, List.mem_cons]
      rcases errandMem with early | rfl | late
      · exact Or.inl early
      · contradiction
      · exact Or.inr (Or.inr late)
  · intro item mem
    obtain ⟨live, openOn⟩ := accounted.opens item mem
    exact ⟨live, fun same => prepared.absent (same ▸ live), openOn⟩

theorem runs (accounted : Accounted site before ledger appended bench)
    (room : bench.store.nextId < numberLimit) (slot : Nat) :
    Accounts site ledger appended bench (.run slot) (bench.perform (.run slot) before) := by
  have nothing : (Move.run slot).brings ledger bench bench = [] := merging_none (Nat.le_refl _)
  rcases Bench.run_or_idle bench slot before with ⟨job, here⟩ | idle
  · have numbered := (accounted.sound.underway.each _ (List.mem_of_getElem? here)).numbered
    obtain ⟨merged, after, ended, -, -, next⟩ :=
      accounted.finished here (Nat.lt_trans numbered room)
    rw [Bench.perform_run here ended]
    exact .of_nothing next (merging_none (Nat.le_of_eq List.length_set)) rfl (Nat.le_succ _)
  · rw [idle]
    exact accounted.stays nothing rfl

/-- A result that is installed takes the files of the pages it replaces, or its own, away. -/
theorem takenIn (accounted : Accounted site before ledger appended bench) {merged : MergedPage}
    (here : bench.errands[slot]? = some (.finished merged)) :
    ∃ last after, install merged bench.store before = ((.ok (), last), after) ∧
      last.ids = bench.store.idsAfter merged ∧ last.nextId = bench.store.nextId ∧
      Accounted site after ledger appended (bench.installed slot (.ok ()) last) := by
  have sound := accounted.sound
  obtain ⟨ready, last, after, ended, ⟨-, ids, nextId, directory, -⟩, next⟩ := sound.takenIn here
  obtain ⟨front, back, split, -, erase⟩ := exists_split here
  have errands : (bench.installed slot (.ok ()) last).errands = front ++ back := erase
  obtain ⟨_, _, _, same, touches, drops⟩ :=
    (install_drops sound.tree sound.store ready).of_quiet sound.quiet
  obtain ⟨⟨-, rfl⟩, rfl⟩ := ended.symm.trans same
  refine ⟨last, after, ended, ids, nextId, ?_⟩
  refine accounted.moved touches next directory (nextId.symm ▸ accounted.numbers) ?_ ?_ ?_
  · exact fun id dropped bound => absurd (drops.removed sound.quiet id dropped) bound
  · intro id mem kept
    have stays (known : id = merged.id ∨ id ∈ bench.store.ids) : id ∈ last.ids := by
      rw [ids]
      by_contra gone
      exact kept ⟨known, gone⟩
    rw [Bench.mem_filed] at mem ⊢
    rcases mem with live | ⟨errand, errandMem, output⟩
    · exact Or.inl (stays (Or.inr live))
    · rw [split, List.mem_append, List.mem_cons] at errandMem
      rcases errandMem with early | rfl | late
      · exact Or.inr ⟨errand, errands.symm ▸ List.mem_append_left _ early, output⟩
      · exact Or.inl (stays (Or.inl (Option.some.inj output).symm))
      · exact Or.inr ⟨errand, errands.symm ▸ List.mem_append_right _ late, output⟩
  · intro item mem
    obtain ⟨old, closed⟩ := drops.closed item mem
    obtain ⟨live, openOn⟩ := accounted.opens item old
    exact ⟨ids.symm ▸ closed live, fun dropped => dropped.2 (closed live), openOn⟩

theorem installs (accounted : Accounted site before ledger appended bench) (slot : Nat) :
    Accounts site ledger appended bench (.install slot) (bench.perform (.install slot) before) := by
  have nothing : (Move.install slot).brings ledger bench bench = [] :=
    merging_none (Nat.le_refl _)
  rcases Bench.install_or_idle bench slot before with ⟨merged, here⟩ | idle
  · obtain ⟨last, after, ended, -, nextId, next⟩ := accounted.takenIn here
    rw [Bench.perform_install here ended]
    exact .of_nothing next (merging_none (List.eraseIdx_sublist ..).length_le) rfl
      (Nat.le_succ_of_le (Nat.le_of_eq nextId))
  · rw [idle]
    exact accounted.stays nothing rfl

/-- Merging all pages at once comes to preparing, running and installing the merge. -/
theorem compacts (accounted : Accounted site before ledger appended bench)
    (few : ∀ id ∈ bench.store.ids, (ledger.entries id).length < countLimit)
    (room : bench.store.nextId < numberLimit) :
    Accounts site ledger appended bench .compact (bench.perform .compact before) := by
  have sound := accounted.sound
  obtain ⟨job, middle, first, prepared, changes, offered⟩ :=
    (compactionJob_runs sound.tree sound.store few).of_quiet sound.quiet
  cases job with
  | none =>
      obtain ⟨rfl, single⟩ := offered
      rw [length_ids] at single
      rw [Bench.perform_compact (compact_none prepared)]
      exact accounted.looked (.unchanged changes) (sound.store.of_nothing sound.tree changes)
        (if_pos single) rfl
  | some job =>
      have entered := accounted.offered changes (fun _ mem => mem) offered
      obtain ⟨rfl, replaced, several, target, -⟩ := offered
      have waits : (bench.errands ++ [Errand.prepared job])[bench.errands.length]? =
          some (.prepared job) := List.getElem?_concat_length
      obtain ⟨merged, second, ran, id, sameReplaced, written⟩ :=
        entered.finished waits (target ▸ room)
      have done : ((bench.errands ++ [Errand.prepared job]).set bench.errands.length
          (.finished merged))[bench.errands.length]? = some (.finished merged) :=
        List.getElem?_set_self (by simp)
      obtain ⟨last, after, installed, ids, nextId, taken⟩ := written.takenIn done
      have only : last.ids = [job.targetId] := by
        rw [← id]
        exact ids.trans (idsAfter_all (sameReplaced.trans replaced))
      have brings : Move.compact.brings ledger bench { bench with store := last } =
          [(job.targetId, sorted (job.replaced.flatMap ledger.entries))] := by
        rw [Move.brings, if_neg (Nat.not_lt.mpr (length_ids bench.store ▸ several)), only, replaced]
        rfl
      rw [Bench.installed_at_once, ← brings] at taken
      have added : Move.compact.added = [] := rfl
      rw [Bench.perform_compact (compact_some prepared ran installed), Accounts, added,
        List.append_nil]
      exact ⟨taken, Nat.le_of_eq nextId⟩

theorem probes (accounted : Accounted site before ledger appended bench) (fp : Fingerprint) :
    Accounts site ledger appended bench (.probe fp) (bench.perform (.probe fp) before) := by
  have sound := accounted.sound
  obtain ⟨answer, last, after, ended, changes, lastSound, same, -⟩ :=
    (probe_runs sound.tree sound.store fp).of_quiet sound.quiet
  have looks := probe_looks sound.tree sound.store.pagesFiled fp
  rw [Keeping.Ends, ended] at looks
  rw [Bench.perform_probe ended]
  exact accounted.looked looks lastSound (merging_none (Nat.le_refl _)) rfl

/-- What is known between two steps is known after the next one. -/
theorem step (accounted : Accounted site before ledger appended bench)
    (room : bench.store.nextId < numberLimit) (few : (sorted appended).length < countLimit)
    (move : Move) (ascending : Ascending move.added) :
    Accounts site ledger appended bench move (bench.perform move before) := by
  have sound := accounted.sound
  cases move with
  | append fps => exact accounted.appends ascending room
  | prepare =>
      obtain ⟨job, last, after, ended, changes, offered⟩ :=
        (compactionJob_runs sound.tree sound.store (sound.few few)).of_quiet sound.quiet
      rw [Bench.perform_prepare ended]
      exact accounted.prepares changes (fun _ mem => mem) offered
  | prepareTiered maxPages =>
      obtain ⟨job, last, after, ended, changes, ends⟩ :=
        (tieredCompactionJob_runs sound.tree sound.store (sound.few few) maxPages).of_quiet
          sound.quiet
      rw [Bench.perform_prepareTiered ended]
      rcases ends with ⟨-, rfl, rfl⟩ | ⟨-, offered⟩
      · exact accounted.looked (.unchanged changes) (sound.store.of_nothing sound.tree changes)
          (merging_none (Nat.le_refl _)) rfl
      · exact accounted.prepares changes (tieredChoice_sublist bench.store.pages) offered
  | run slot => exact accounted.runs room slot
  | install slot => exact accounted.installs slot
  | compact => exact accounted.compacts (sound.few few) room
  | probe fp => exact accounted.probes fp

/-- What is known at first is known after any course, as long as numbers do not run out. -/
theorem run (accounted : Accounted site before ledger appended bench) (moves : List Move)
    (possible : Bench.Possible moves bench.store.nextId appended) :
    Accounted site (Bench.run moves bench before).2 (bench.ledger moves before ledger)
      (appended ++ moves.flatMap Move.added) (Bench.run moves bench before).1 := by
  induction moves generalizing bench before ledger appended with
  | nil => exact (List.append_nil appended).symm ▸ accounted
  | cons move moves ih =>
      obtain ⟨room, few, ascending⟩ := possible.first
      obtain ⟨next, single⟩ := accounted.step room few move ascending
      rw [List.flatMap_cons, ← List.append_assoc]
      exact ih next (possible.rest single)

end Accounted

namespace Site

variable {site : Site}

/-- The ledger after a course. -/
def ledger (site : Site) (moves : List Move) : Ledger :=
  site.begun.1.ledger moves site.begun.2 []

/-- A new store has no files. -/
theorem begun_accounted (quiet : site.volume.Quiet) (created : site.create.1.isOk = true) :
    Accounted site site.begun.2 [] [] site.begun.1 ∧ site.begun.1.store.nextId = 0 := by
  obtain ⟨store, before, begun, changes, sound, pages, nextId, -, directory⟩ := begun_new created
  rw [begun]
  have others (name : String) : before.binding? (site.directory.child name) =
      site.volume.binding? (site.directory.child name) :=
    changes.entry_eq _ (not_missing_child _ _ _)
  refine ⟨?_, nextId⟩
  exact
    { sound := .ofEmpty (changes.sound site.sound) (changes.quiet quiet) sound pages
      directory := directory
      numbers := by rw [nextId]; rfl
      filed := by
        intro id bound
        rw [pagePath_eq, directory, others, site.free] at bound
        contradiction
      others := fun name _ => others name
      opens := by
        intro item mem
        have below := (sound.opened item.1 item.2 mem).1
        rw [nextId] at below
        contradiction }

end Site

namespace Accounted

variable {site : Site} {volume : Volume} {ledger : Ledger} {appended : List Fingerprint}
  {bench : Bench}

/-- To the names that were there, the directory has got those of the files. -/
theorem children_perm (accounted : Accounted site volume ledger appended bench) :
    (volume.children site.directory).Perm
      (site.volume.children site.directory ++ bench.filed.map pageName) := by
  have named : (bench.filed.map pageName).Nodup :=
    accounted.sound.filed_nodup.map fun _ _ => numbered_inj.mp
  have apart : List.Disjoint (site.volume.children site.directory) (bench.filed.map pageName) := by
    intro name old isPage
    obtain ⟨id, -, rfl⟩ := List.mem_map.mp isPage
    exact mem_children_iff.mp old (site.free id)
  have distinct := List.nodup_append'.mpr ⟨children_nodup site.volume site.directory, named, apart⟩
  apply (List.perm_ext_iff_of_nodup (children_nodup _ _) distinct).mpr
  intro name
  rw [List.mem_append, mem_children_iff, mem_children_iff]
  by_cases isPage : ∃ id, name = pageName id
  · obtain ⟨id, rfl⟩ := isPage
    have path : bench.store.pagePath id = site.directory.child (pageName id) := by
      rw [pagePath_eq, accounted.directory]
    constructor
    · intro bound
      exact Or.inr (List.mem_map_of_mem (accounted.filed id (path.symm ▸ bound)))
    · rintro (old | mem)
      · exact absurd (site.free id) old
      · obtain ⟨⟨file, holds⟩, -⟩ :=
          accounted.sound.holds ((List.mem_map_of_injective fun _ _ => numbered_inj.mp).mp mem)
        rw [← path, holds.bound]
        exact Option.some_ne_none _
  · have foreign (id : PageId) : name ≠ pageName id := fun same => isPage ⟨id, same⟩
    rw [accounted.others name foreign, or_iff_left]
    intro mem
    obtain ⟨id, -, same⟩ := List.mem_map.mp mem
    exact foreign id same.symm

end Accounted

/-- Whatever is appended and probed, and whatever merges of whatever pages are prepared, run and
installed in whatever order: the files that the directory has got are those of the pages and of the
merges that were run and wait to be installed.  They hold in order what their numbers are entered
with, and every number that was given out is entered once.  The pages hold all that was appended and
nothing else, and what is open are files of pages. -/
theorem files_are_pages (site : Site) (quiet : site.volume.Quiet)
    (created : site.create.1.isOk = true) (moves : List Move)
    (ascending : ∀ fps, .append fps ∈ moves → Ascending fps)
    (numbered : moves.length ≤ UInt64.size)
    (few : (sorted (moves.flatMap Move.added)).length < UInt64.size) :
    (site.after moves).1.errors = [] ∧
      ((site.after moves).2.children site.directory).Perm
        (site.volume.children site.directory ++ (site.after moves).1.filed.map pageName) ∧
      (∀ id ∈ (site.after moves).1.filed,
        (site.after moves).2.bytes? (site.directory.child (pageName id)) =
          some (fileBytes .page ((site.ledger moves).entries id)) ∧
        Ascending ((site.ledger moves).entries id)) ∧
      (site.ledger moves).numbers = List.range (site.after moves).1.store.nextId ∧
      (∀ page ∈ (site.after moves).1.store.pages,
        page.path = site.directory.child (pageName page.id) ∧
        page.Describes ((site.ledger moves).entries page.id)) ∧
      (∀ fp, (∃ page ∈ (site.after moves).1.store.pages,
        fp ∈ (site.ledger moves).entries page.id) ↔ fp ∈ moves.flatMap Move.added) ∧
      ∀ item ∈ (site.after moves).1.store.handles.entries,
        ∃ page ∈ (site.after moves).1.store.pages, page.id = item.1 ∧
          OpenOn (site.after moves).2 page.path item.2 := by
  obtain ⟨begun, nextId⟩ := Site.begun_accounted quiet created
  have room : site.begun.1.store.nextId + moves.length ≤ numberLimit := by
    rw [nextId, Nat.zero_add]
    exact Nat.le_trans numbered (by decide)
  have ends := begun.run moves ⟨ascending, room, few⟩
  have placed (id : PageId) : (site.after moves).1.store.pagePath id =
      site.directory.child (pageName id) := by
    rw [pagePath_eq]
    exact congrArg (Path.child · _) ends.directory
  refine ⟨ends.sound.errors, ends.children_perm, ?_, ends.numbers, ?_, ?_, ?_⟩
  · intro id mem
    obtain ⟨⟨file, holds⟩, inOrder⟩ := ends.sound.holds mem
    refine ⟨?_, inOrder⟩
    rw [← placed]
    exact bytes?_eq_some_iff.mpr ⟨file, holds.bound, holds.bytes⟩
  · intro page mem
    exact ⟨(ends.sound.store.placed page mem).trans (placed _), ends.sound.store.describes page mem⟩
  · exact fun fp => mem_contents.symm.trans (ends.sound.held fp)
  · intro item mem
    obtain ⟨live, openOn⟩ := ends.opens item mem
    obtain ⟨page, pageMem, same⟩ := List.mem_map.mp live
    refine ⟨page, pageMem, same, ?_⟩
    rw [ends.sound.store.placed page pageMem, same]
    exact openOn

/-- Two merges of the same two pages, one of which comes too late, and one that is run and waits. -/
theorem files_are_pages_waiting :
    let site := Site.small
    let moves := [.append [1, 3], .append [2, 3], .prepare, .prepareTiered 1, .append [5],
      .run 0, .run 1, .probe 3, .install 1, .install 0, .prepare, .run 0]
    site.volume.Quiet ∧ site.create.1.isOk = true ∧
      (∀ fps, .append fps ∈ moves → Ascending fps) ∧ moves.length ≤ UInt64.size ∧
      (sorted (moves.flatMap Move.added)).length < UInt64.size ∧
      site.ledger moves =
        [(0, [1, 3]), (1, [2, 3]), (2, [1, 2, 3]), (3, [1, 2, 3]), (4, [5]), (5, [1, 2, 3, 5])] ∧
      ((site.after moves).2.children site.directory).Perm ([4, 3, 5].map pageName) := by
  intro site moves
  have quiet : site.volume.Quiet := fun _ _ => rfl
  have created : site.create.1.isOk = true := by decide +kernel
  have ascending (fps : List Fingerprint) (mem : .append fps ∈ moves) : Ascending fps := by
    have each : ∀ move ∈ moves, Ascending move.added := by
      simp only [moves, List.forall_mem_cons, Move.added, Ascending]
      decide
    exact each _ mem
  have numbered : moves.length ≤ UInt64.size := by decide
  have few : (sorted (moves.flatMap Move.added)).length < UInt64.size := by decide +kernel
  have filed : (site.after moves).1.filed = [4, 3, 5] := by decide +kernel
  have right := (files_are_pages site quiet created moves ascending numbered few).2.1
  rw [filed] at right
  exact ⟨quiet, created, ascending, numbered, few, by decide +kernel, right⟩

end PageStore

end FingerprintSet
