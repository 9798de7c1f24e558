import FingerprintSet.Proofs.PageStore.Numbers

/-!
# Files that go and handles that stay

What single operations on a store do to the names in its directory and to the handles that are open.
Probing opens files of pages only and touches no name.  Appending opens none.  Installing a merged
page removes the files whose numbers are no pages afterwards, those of the pages that were replaced
or, if it comes too late, its own, and closes what is open on them.
-/

namespace FingerprintSet

open Storage Volume

namespace PageStore

variable {before after : Volume} {entries : PageId → List Fingerprint} {store last : PageStore}

/-! ## Probing -/

/-- A handle is open on the file that has a path. -/
def OpenOn (volume : Volume) (path : Path) (handle : Handle) : Prop :=
  ∃ file, handle = .file file ∧ volume.binding? path = some (.file file)

/-- A store that was only looked at: every open handle was open before or is open on the file of a
page. -/
structure LookedAt (before after : Volume) (store last : PageStore) : Prop where
  same : store.SameButHandles last
  changes : Changes Nowhere NoFile before after
  handles : ∀ item ∈ last.handles.entries, item ∈ store.handles.entries ∨
    ∃ page ∈ store.pages, page.id = item.1 ∧ OpenOn before page.path item.2

theorem LookedAt.unchanged (changes : Changes Nowhere NoFile before after) :
    LookedAt before after store store where
  same := rfl
  changes := changes
  handles _ mem := Or.inl mem

theorem LookedAt.trans {middle : Volume} {between : PageStore}
    (first : LookedAt before middle store between) (second : LookedAt middle after between last) :
    LookedAt before after store last where
  same := first.same.trans second.same
  changes := first.changes.trans second.changes
  handles item mem := by
    rcases second.handles item mem with older | ⟨page, pageMem, same, file, handle, bound⟩
    · exact first.handles item older
    · rw [first.changes.entry_eq _ fun none => none] at bound
      exact Or.inr ⟨page, first.same.pages ▸ pageMem, same, file, handle, bound⟩

/-- The files of pages are there. -/
def Filed (volume : Volume) (pages : List Page) : Prop :=
  ∀ page ∈ pages, ∃ file, volume.binding? page.path = some (.file file)

theorem Filed.of_nothing {pages : List Page} (filed : Filed before pages)
    (changes : Changes Nowhere NoFile before after) : Filed after pages := by
  intro page mem
  rw [changes.entry_eq _ fun none => none]
  exact filed page mem

theorem Sound.pagesFiled (sound : store.Sound before entries) : Filed before store.pages := by
  intro page mem
  obtain ⟨file, holds⟩ := sound.filed page mem
  exact ⟨file, holds.bound⟩

theorem handleOf_looks (volumeSound : before.Sound) (filed : Filed before store.pages) {page : Page}
    (mem : page ∈ store.pages) :
    Keeping.Ends (handleOf page) store before fun _ last after =>
      LookedAt before after store last := by
  apply Keeping.Ends.getThen
  cases found : store.handles.find? page.id with
  | some handle =>
      apply Keeping.Ends.modifyThen
      refine Keeping.Ends.of_eq rfl ⟨rfl, .refl before, fun item touched => ?_⟩
      rcases List.mem_cons.mp touched with rfl | older
      · exact Or.inl (mem_of_lookup found)
      · exact Or.inl (List.mem_filter.mp older).1
  | none =>
      obtain ⟨file, bound⟩ := filed page mem
      have opens := @Activity.runs _ (.openingPage page.path) _ _ _ _ _
        (openFile_runs volumeSound bound)
      refine Keeping.Ends.liftThen (Meets.mono opens (fun _ _ good => good)
        fun _ _ refused => .unchanged refused.1) ?_
      rintro _ after ⟨changes, rfl⟩
      apply Keeping.Ends.modifyThen
      refine Keeping.Ends.of_eq rfl ⟨rfl, changes, fun item inserted => ?_⟩
      rcases List.mem_cons.mp (List.mem_of_mem_take inserted) with rfl | older
      · exact Or.inr ⟨page, mem, rfl, file, rfl, bound⟩
      · exact Or.inl older

theorem readBlock_looks (handle : Handle) (start length : Nat) :
    Looks (Page.readBlock handle start length) := by
  refine (readAt_looks handle _ _).bind fun bytes => ?_
  split
  · exact Looks.throw _
  · exact Looks.pure _

theorem probePage_looks (volumeSound : before.Sound) (filed : Filed before store.pages)
    {page : Page} (mem : page ∈ store.pages) (fp : Fingerprint) :
    Keeping.Ends (probePage page fp) store before fun _ last after =>
      LookedAt before after store last := by
  rw [probePage]
  cases page.locate fp with
  | absent => exact Keeping.Ends.of_eq rfl (.unchanged (.refl before))
  | present => exact Keeping.Ends.of_eq rfl (.unchanged (.refl before))
  | block start length =>
      refine (handleOf_looks volumeSound filed mem).bind (fun _ _ _ looked => looked) ?_
      intro handle last after looked
      have readsOnly : Looks ((Activity.probingPage page.path).run
          (Page.readBlock handle start length)) := (readBlock_looks handle start length).adapt
      have reads := readsOnly after
      refine Keeping.Ends.liftThen (Meets.mono reads (fun _ _ changes => changes)
        fun _ _ changes => looked.trans (.unchanged changes)) ?_
      exact fun block final changes => Keeping.Ends.of_eq rfl (looked.trans (.unchanged changes))

theorem probePages_looks (volumeSound : before.Sound) (filed : Filed before store.pages)
    (fp : Fingerprint) (pages : List Page) (sub : ∀ page ∈ pages, page ∈ store.pages) :
    Keeping.Ends (probePages fp pages) store before fun _ last after =>
      LookedAt before after store last := by
  induction pages generalizing store before with
  | nil => exact Keeping.Ends.of_eq rfl (.unchanged (.refl before))
  | cons page pages ih =>
      rw [List.forall_mem_cons] at sub
      refine (probePage_looks volumeSound filed sub.1 fp).bind (fun _ _ _ looked => looked) ?_
      intro found last after looked
      cases found with
      | true => exact Keeping.Ends.of_eq rfl looked
      | false =>
          have filedStill : Filed after last.pages :=
            looked.same.pages ▸ filed.of_nothing looked.changes
          refine (ih (looked.changes.sound volumeSound) filedStill fun other mem =>
            looked.same.pages ▸ sub.2 other mem).mono ?_
          exact fun _ _ _ more => looked.trans more

/-- However a probe ends, the store was only looked at. -/
theorem probe_looks (volumeSound : before.Sound) (filed : Filed before store.pages)
    (fp : Fingerprint) :
    Keeping.Ends (probe fp) store before fun _ last after => LookedAt before after store last :=
  Keeping.Ends.getThen (probePages_looks volumeSound filed fp _ fun _ => List.mem_reverse.mp)

/-! ## Appending -/

/-- A page that is written is not opened. -/
theorem append_handles (fps : List Fingerprint) :
    Keeping.Leaves (append fps) store fun _ last => last.handles = store.handles := by
  refine (append_outcome fps).mono fun _ _ appending => ?_
  cases appending with
  | nothing | added | refused => rfl

/-! ## Installing -/

/-- The paths of the files with some numbers. -/
def FilesOf (store : PageStore) (numbers : PageId → Prop) (path : Path) : Prop :=
  ∃ id, numbers id ∧ path = store.pagePath id

theorem filesOf_pagePath {numbers : PageId → Prop} {id : PageId} :
    store.FilesOf numbers (store.pagePath id) ↔ numbers id := by
  constructor
  · rintro ⟨other, mem, same⟩
    exact pagePath_inj.mp same ▸ mem
  · exact fun mem => ⟨id, mem, rfl⟩

/-- Discarded pages have neither a file nor an open handle any more. -/
structure Cleared (before after : Volume) (store last : PageStore) (pages : List Page) : Prop where
  removed : before.Quiet → ∀ page ∈ pages, after.binding? page.path = none
  closed : ∀ item ∈ last.handles.entries, item ∈ store.handles.entries ∧
    ∀ page ∈ pages, page.id ≠ item.1

theorem discard_clears (volumeSound : before.Sound) {page : Page} {file : FileId}
    (bound : before.binding? page.path = some (.file file)) :
    Keeping.Runs (discard page) store before (At page.path) NoFile
      (fun _ last after => Cleared before after store last [page]) fun _ _ => True := by
  apply Keeping.Runs.modifyThen
  refine Keeping.Runs.lift ((removeIfPresent_runs volumeSound bound).mono ?_) fun _ _ => trivial
  intro _ after _ removed
  constructor
  · intro quiet other mem
    rw [List.mem_singleton.mp mem]
    exact removed quiet
  · intro item kept
    obtain ⟨old, different⟩ := List.mem_filter.mp kept
    refine ⟨old, fun other mem same => ?_⟩
    rw [List.mem_singleton.mp mem] at same
    simp [same] at different

theorem discards_clear (volumeSound : before.Sound) {pages : List Page}
    (filed : Filed before pages) (distinct : (pages.map (·.path)).Nodup) :
    Keeping.Runs (pages.forM discard) store before (fun path => ∃ page ∈ pages, path = page.path)
      NoFile (fun _ last after => Cleared before after store last pages) fun _ _ => True := by
  induction pages generalizing store before with
  | nil => exact Keeping.Runs.pure ⟨by simp, fun item mem => ⟨mem, by simp⟩⟩
  | cons page pages ih =>
      rw [List.map_cons, List.nodup_cons] at distinct
      obtain ⟨file, bound⟩ := filed page List.mem_cons_self
      have first := (@discard_clears _ store volumeSound _ _ bound).mono
        (fun _ _ _ changes cleared => And.intro changes cleared) fun _ _ _ none => none
      apply Keeping.Runs.bind (first.widen (fun _ same => ⟨page, List.mem_cons_self, same⟩)
        fun _ _ none => none)
      rintro _ middle between - ⟨changes, cleared⟩
      have elsewhere (other : Page) (mem : other ∈ pages) : ¬At page.path other.path :=
        fun same => distinct.1 (same ▸ List.mem_map_of_mem mem)
      have filedStill : Filed between pages := by
        intro other mem
        rw [changes.entry_eq _ (elsewhere other mem)]
        exact filed other (List.mem_cons_of_mem _ mem)
      have rest := (@ih _ middle (changes.sound volumeSound) filedStill distinct.2).mono
        (fun _ _ _ changes cleared => And.intro changes cleared) fun _ _ _ none => none
      apply (rest.widen (fun _ ⟨other, mem, same⟩ => ⟨other, List.mem_cons_of_mem _ mem, same⟩)
        fun _ _ none => none).mono
      · rintro _ last after - ⟨more, clearedRest⟩
        constructor
        · intro quiet
          rw [List.forall_mem_cons]
          refine ⟨?_, clearedRest.removed (changes.quiet quiet)⟩
          rw [more.entry_eq]
          · exact cleared.removed quiet page List.mem_cons_self
          · rintro ⟨other, mem, same⟩
            exact elsewhere other mem same.symm
        · intro item mem
          obtain ⟨kept, others⟩ := clearedRest.closed item mem
          obtain ⟨old, different⟩ := cleared.closed item kept
          exact ⟨old, List.forall_mem_cons.mpr ⟨different page List.mem_cons_self, others⟩⟩
      · exact fun _ _ _ none => none

/-- The number of a file that is no page once a merged page was installed. -/
def Dropped (store : PageStore) (merged : MergedPage) (id : PageId) : Prop :=
  (id = merged.id ∨ id ∈ store.ids) ∧ id ∉ store.idsAfter merged

variable {merged : MergedPage}

theorem dropped_iff_replaced (absent : merged.id ∉ store.ids)
    (live : ∀ id ∈ merged.replaced, id ∈ store.ids) (id : PageId) :
    store.Dropped merged id ↔ id ∈ merged.replaced := by
  rw [Dropped, idsAfter, if_pos live, List.mem_append, List.mem_singleton, List.mem_filter]
  constructor
  · rintro ⟨known, gone⟩
    by_contra kept
    rcases known with same | old
    · exact gone (Or.inr same)
    · exact gone (Or.inl ⟨old, by simpa using kept⟩)
  · intro replaced
    refine ⟨Or.inr (live id replaced), ?_⟩
    rintro (⟨-, kept⟩ | same)
    · simp [replaced] at kept
    · exact absent (same ▸ live id replaced)

theorem dropped_iff_merged (absent : merged.id ∉ store.ids)
    (stale : ¬∀ id ∈ merged.replaced, id ∈ store.ids) (id : PageId) :
    store.Dropped merged id ↔ id = merged.id := by
  rw [Dropped, idsAfter, if_neg stale]
  constructor
  · rintro ⟨same | old, gone⟩
    · exact same
    · exact absurd old gone
  · rintro rfl
    exact ⟨Or.inl rfl, absent⟩

/-- What installing a merged page leaves of files and handles. -/
structure Drops (before after : Volume) (store last : PageStore) (merged : MergedPage) : Prop where
  removed : before.Quiet → ∀ id, store.Dropped merged id →
    after.binding? (store.pagePath id) = none
  closed : ∀ item ∈ last.handles.entries, item ∈ store.handles.entries ∧
    (item.1 ∈ store.ids → item.1 ∈ store.idsAfter merged)

/-- Installing a merged page removes the files that are of no page afterwards, and no other. -/
theorem install_drops (volumeSound : before.Sound) (sound : store.Sound before entries)
    (ready : merged.Ready before entries store) :
    Keeping.Runs (install merged) store before (store.FilesOf (store.Dropped merged)) NoFile
      (fun _ last after => Drops before after store last merged) fun _ _ => True := by
  have allLive := all_live_iff sound ready.distinct
  apply Keeping.Runs.getThen
  rw [List.partition_eq_filter_filter]
  dsimp only
  split
  · rename_i incomplete
    have stale : ¬∀ id ∈ merged.replaced, id ∈ store.ids := incomplete ∘ allLive.mpr
    have dropped := dropped_iff_merged ready.absent stale
    obtain ⟨file, holds⟩ := ready.filed
    have removes := removeIfPresent_runs volumeSound holds.bound
    refine (Keeping.Runs.lift (removes.mono ?_) fun _ _ => trivial).widen ?_ fun _ _ none => none
    · intro _ after _ removed
      constructor
      · intro quiet id gone
        rw [(dropped id).mp gone, ← ready.path]
        exact removed quiet
      · intro item mem
        rw [idsAfter, if_neg stale]
        exact ⟨mem, fun old => old⟩
    · exact fun path same => ⟨merged.id, (dropped _).mpr rfl, same.trans ready.path⟩
  · rename_i complete
    have live := allLive.mp (Decidable.not_not.mp complete)
    have dropped := dropped_iff_replaced ready.absent live
    have replaced_iff (page : Page) : page ∈ store.replacedBy merged ↔
        page ∈ store.pages ∧ page.id ∈ merged.replaced := by
      rw [replacedBy, List.mem_filter, List.contains_iff_mem]
    have filed : Filed before (store.replacedBy merged) := fun page mem =>
      sound.pagesFiled page ((replaced_iff page).mp mem).1
    have paths : (store.replacedBy merged).map (·.path) =
        ((store.replacedBy merged).map (·.id)).map store.pagePath := by
      rw [List.map_map]
      exact List.map_congr_left fun page mem => sound.placed page ((replaced_iff page).mp mem).1
    have distinct : ((store.replacedBy merged).map (·.path)).Nodup := by
      rw [paths]
      exact ((List.filter_sublist.map _).nodup sound.distinct).map fun _ _ => pagePath_inj.mp
    apply Keeping.Runs.modifyThen
    refine ((@discards_clear _ (store.takenIn merged) volumeSound _ filed distinct).mono ?_
      fun _ _ _ none => none).widen ?_ fun _ _ none => none
    · intro _ last after _ cleared
      constructor
      · intro quiet id gone
        have isReplaced := (dropped id).mp gone
        obtain ⟨page, mem, rfl⟩ := List.mem_map.mp (live id isReplaced)
        rw [← sound.placed page mem]
        exact cleared.removed quiet page ((replaced_iff page).mpr ⟨mem, isReplaced⟩)
      · intro item mem
        obtain ⟨old, closed⟩ := cleared.closed item mem
        refine ⟨old, fun known => ?_⟩
        by_contra gone
        obtain ⟨page, pageMem, same⟩ := List.mem_map.mp known
        have isReplaced := (dropped item.1).mp ⟨Or.inr known, gone⟩
        exact closed page ((replaced_iff page).mpr ⟨pageMem, same ▸ isReplaced⟩) same
    · rintro path ⟨page, mem, rfl⟩
      obtain ⟨pageMem, isReplaced⟩ := (replaced_iff page).mp mem
      exact ⟨page.id, (dropped _).mpr isReplaced, sound.placed page pageMem⟩

end PageStore

end FingerprintSet
