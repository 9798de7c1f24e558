import FingerprintSet.PageStore.Basic
import FingerprintSet.Proofs.Page
import FingerprintSet.Proofs.SortedFile.Reading
import FingerprintSet.Proofs.Storage.Directories
import FingerprintSet.Proofs.Storage.Keeping
import FingerprintSet.Proofs.Storage.Names
import Mathlib.Data.List.Nodup

/-!
# Sound page stores

A page number stands for one list of fingerprints for good.  A store is sound when every page
describes the list of its number and its file holds it, when whatever handle is kept open reads
that list, and when no file has a name that is still to be given out.  Appending gives the next
number a list; probing asks all lists of the store.
-/

namespace FingerprintSet

open Storage Volume SortedFile

namespace PageStore

/-- The name of a page's file. -/
def pageName (id : PageId) : String :=
  numbered "page-" 8 id ".fpp"

theorem pagePath_eq (store : PageStore) (id : PageId) :
    store.pagePath id = store.directory.child (pageName id) := rfl

theorem pageName_fits {id : PageId} (below : id < numberLimit) : FitsDirectory (pageName id) :=
  numbered_fits (by decide) (by decide) (by decide) (by decide) below

theorem pagePath_inj {store : PageStore} {first second : PageId} :
    store.pagePath first = store.pagePath second ↔ first = second := by
  rw [pagePath_eq, pagePath_eq, Path.child_inj, pageName, pageName, numbered_inj]

/-- The numbers of the pages, the oldest first. -/
def ids (store : PageStore) : List PageId :=
  store.pages.map (·.id)

theorem length_ids (store : PageStore) : store.ids.length = store.pageCount :=
  List.length_map _

/-- All entries of all pages, when each number stands for the given list. -/
def contents (entries : PageId → List Fingerprint) (store : PageStore) : List Fingerprint :=
  store.ids.flatMap entries

theorem mem_contents {entries : PageId → List Fingerprint} {store : PageStore} {fp : Fingerprint} :
    fp ∈ store.contents entries ↔ ∃ page ∈ store.pages, fp ∈ entries page.id := by
  rw [contents, List.mem_flatMap]
  constructor
  · rintro ⟨_, mem, isEntry⟩
    obtain ⟨page, pageMem, rfl⟩ := List.mem_map.mp mem
    exact ⟨page, pageMem, isEntry⟩
  · rintro ⟨page, mem, isEntry⟩
    exact ⟨page.id, List.mem_map_of_mem mem, isEntry⟩

/-- From now on a page number stands for a list. -/
def assign (entries : PageId → List Fingerprint) (id : PageId) (fps : List Fingerprint) :
    PageId → List Fingerprint :=
  fun other => if other = id then fps else entries other

@[simp]
theorem assign_self (entries : PageId → List Fingerprint) (id : PageId)
    (fps : List Fingerprint) : assign entries id fps id = fps :=
  if_pos rfl

theorem assign_ne (entries : PageId → List Fingerprint) {id other : PageId}
    (fps : List Fingerprint) (different : other ≠ id) : assign entries id fps other = entries other :=
  if_neg different

/-- Every page number stands for its list, in memory and on the volume. -/
structure Sound (volume : Volume) (entries : PageId → List Fingerprint) (store : PageStore) :
    Prop where
  isDir : volume.IsDir store.directory
  numbered : ∀ page ∈ store.pages, page.id < store.nextId
  placed : ∀ page ∈ store.pages, page.path = store.pagePath page.id
  distinct : store.ids.Nodup
  describes : ∀ page ∈ store.pages, page.Describes (entries page.id)
  filed : ∀ page ∈ store.pages, ∃ file, Holds volume page.path .page (entries page.id) file
  opened : ∀ id handle, (id, handle) ∈ store.handles.entries → id < store.nextId ∧
    ∃ file, handle = .file file ∧ file < volume.contents.size ∧
      volume.read file = fileBytes .page (entries id)
  free : ∀ id, store.nextId ≤ id → volume.binding? (store.pagePath id) = none
  counted : store.entries = (store.contents entries).length
  stride : 0 < store.limits.stride

variable {before : Volume} {entries : PageId → List Fingerprint} {store : PageStore}

theorem Sound.id_lt (sound : store.Sound before entries) {id : PageId} (mem : id ∈ store.ids) :
    id < store.nextId := by
  obtain ⟨page, pageMem, rfl⟩ := List.mem_map.mp mem
  exact sound.numbered page pageMem

/-- A store stays sound while nothing happens to any page, to the names of its own pages or to
the names still to be given out. -/
theorem Sound.of_changes {after : Volume} {paths : Path → Prop} {files : FileId → Prop}
    (sound : store.Sound before entries) (volumeSound : before.Sound)
    (changes : Changes paths files before after) (pages : ∀ id, files id → ¬IsPage before id)
    (directory : ¬paths store.directory)
    (outside : ∀ id, paths (store.pagePath id) →
      id ∉ store.ids ∧ id < store.nextId) : store.Sound after entries :=
  { sound with
    isDir := changes.isDir directory sound.isDir
    filed := by
      intro page mem
      obtain ⟨file, holds⟩ := sound.filed page mem
      refine ⟨file, holds.of_changes changes volumeSound ?_ fun touched =>
        pages file touched (holds.isPage volumeSound)⟩
      rw [sound.placed page mem]
      exact fun inside => (outside page.id inside).1 (List.mem_map_of_mem mem)
    opened := by
      intro id handle mem
      obtain ⟨below, file, handleEq, known, bytes⟩ := sound.opened id handle mem
      refine ⟨below, file, handleEq, Nat.lt_of_lt_of_le known changes.size_le, ?_⟩
      rw [changes.read_eq file known fun touched => pages file touched ⟨known, _, bytes⟩, bytes]
    free := by
      intro id next
      rw [changes.entry_eq _ fun inside => Nat.not_lt.mpr next (outside id inside).2]
      exact sound.free id next }

theorem Sound.of_nothing {after : Volume} (sound : store.Sound before entries)
    (volumeSound : before.Sound) (changes : Changes Nowhere NoFile before after) :
    store.Sound after entries :=
  sound.of_changes volumeSound changes (fun _ none => none.elim) (fun none => none)
    fun _ none => none.elim

/-- What the numbers given out so far stand for is all that matters. -/
theorem Sound.congr {others : PageId → List Fingerprint} (sound : store.Sound before entries)
    (same : ∀ id, id < store.nextId → others id = entries id) : store.Sound before others := by
  have contentsEq : store.contents others = store.contents entries := by
    rw [contents, contents, List.flatMap, List.flatMap]
    congr 1
    exact List.map_congr_left fun id mem => same id (sound.id_lt mem)
  exact
    { sound with
      describes := fun page mem => by
        rw [same page.id (sound.numbered page mem)]
        exact sound.describes page mem
      filed := fun page mem => by
        rw [same page.id (sound.numbered page mem)]
        exact sound.filed page mem
      opened := fun id handle mem => by
        obtain ⟨below, found⟩ := sound.opened id handle mem
        rw [same id below]
        exact ⟨below, found⟩
      counted := by rw [contentsEq, sound.counted] }

/-- A number that is still to be given out can be made to stand for any list. -/
theorem Sound.assigned (sound : store.Sound before entries) (fps : List Fingerprint) :
    store.Sound before (assign entries store.nextId fps) :=
  sound.congr fun _ below => assign_ne entries fps (Nat.ne_of_lt below)

theorem Sound.contents_assign (sound : store.Sound before entries) (fps : List Fingerprint) :
    store.contents (assign entries store.nextId fps) = store.contents entries := by
  rw [contents, contents, List.flatMap, List.flatMap]
  congr 1
  apply List.map_congr_left
  intro id mem
  exact assign_ne entries fps (Nat.ne_of_lt (sound.id_lt mem))

theorem length_le_contents {id : PageId} (mem : id ∈ store.ids) :
    (entries id).length ≤ (store.contents entries).length :=
  (List.sublist_flatten_of_mem (List.mem_map_of_mem mem)).length_le

/-! ## Creating -/

theorem create_runs (volumeSound : before.Sound) {directory : Path} {limits : StoreLimits}
    (creatable : Creatable before directory) (representable : HandleCache.isRepresentable
      limits.openHandles = true) (small : limits.stride * entryLength ≤ maxBlockBytes)
    (stride : 0 < limits.stride)
    (free : ∀ id, before.binding? (directory.child (pageName id)) = none) :
    Runs (create directory limits) before (Missing before directory) NoFile fun store after =>
      store.Sound after entries ∧ store.directory = directory ∧ store.pages = [] ∧
        store.nextId = 0 ∧ store.entries = 0 ∧ store.limits = limits := by
  apply Runs.bind (Activity.runs (makeDirectories_runs volumeSound creatable))
  rintro _ after changes ⟨-, isDir⟩
  rw [representable, if_neg (by simp), if_neg (Nat.not_lt.mpr small)]
  apply Runs.pure
  refine ⟨?_, rfl, rfl, rfl, rfl, rfl⟩
  have outside (id : PageId) : ¬Missing before directory (directory.child (pageName id)) :=
    not_missing_child _ _ _
  constructor <;> try simp [ids, contents, HandleCache.empty]
  · exact isDir
  · intro id
    rw [pagePath_eq, changes.entry_eq _ (outside id)]
    exact free id
  · exact stride

/-! ## Adding a page -/

theorem nodup_snoc {numbers : List PageId} {id : PageId} (nodup : numbers.Nodup)
    (fresh : id ∉ numbers) : (numbers ++ [id]).Nodup := by
  rw [← List.concat_eq_append]
  exact nodup.concat fresh

/-- With some of its pages and a new one a store is sound, if it counts their entries. -/
theorem Sound.repaged (sound : store.Sound before entries) {kept : List Page} {page : Page}
    {budget count compactions : Nat} (sub : ∀ old ∈ kept, old ∈ store.pages)
    (distinct : (kept.map (·.id) ++ [page.id]).Nodup) (numbered : page.id < store.nextId)
    (placed : page.path = store.pagePath page.id) (describes : page.Describes (entries page.id))
    (filed : ∃ file, Holds before page.path .page (entries page.id) file)
    (counted : count = ((kept.map (·.id) ++ [page.id]).flatMap entries).length) :
    Sound before entries { store with
      pages := Page.withinBudget budget (kept ++ [page])
      entries := count
      compactions := compactions } := by
  have every {property : Page → Prop} (old : ∀ other ∈ store.pages, property other)
      (new : property page) : ∀ other ∈ kept ++ [page], property other := by
    intro other mem
    rcases List.mem_append.mp mem with mem | mem
    · exact old other (sub other mem)
    · exact List.mem_singleton.mp mem ▸ new
  have idsEq : (Page.withinBudget budget (kept ++ [page])).map (·.id) =
      kept.map (·.id) ++ [page.id] := by
    rw [Page.withinBudget_ids, List.map_append, List.map_singleton]
  exact
    { sound with
      numbered := by
        intro other mem
        obtain ⟨old, oldMem, idEq, -⟩ := Page.mem_withinBudget mem
        rw [← idEq]
        exact every sound.numbered numbered old oldMem
      placed := by
        intro other mem
        obtain ⟨old, oldMem, idEq, pathEq⟩ := Page.mem_withinBudget mem
        rw [← idEq, ← pathEq]
        exact every sound.placed placed old oldMem
      distinct := by
        rw [ids, idsEq]
        exact distinct
      describes := Page.withinBudget_describes budget (every sound.describes describes)
      filed := by
        intro other mem
        obtain ⟨old, oldMem, idEq, pathEq⟩ := Page.mem_withinBudget mem
        rw [← idEq, ← pathEq]
        exact every sound.filed filed old oldMem
      counted := by
        rw [contents, ids, idsEq]
        exact counted }

/-- A number given out is no longer free. -/
theorem Sound.allocated (sound : store.Sound before entries) :
    Sound before entries { store with nextId := store.nextId + 1 } :=
  { sound with
    numbered := fun page mem => Nat.lt_succ_of_lt (sound.numbered page mem)
    opened := fun id handle mem =>
      have found := sound.opened id handle mem
      ⟨Nat.lt_succ_of_lt found.1, found.2⟩
    free := fun id next => sound.free id (Nat.le_of_succ_le next) }

/-- Work on the file of a number just given out leaves the store sound. -/
theorem Sound.allocated_of_changes {after : Volume} (sound : store.Sound before entries)
    (volumeSound : before.Sound)
    (changes : Changes (At (store.pagePath store.nextId)) NoFile before after) :
    Sound after entries { store with nextId := store.nextId + 1 } := by
  apply sound.allocated.of_changes volumeSound changes fun _ none => none.elim
  · exact fun same => Path.ne_child _ _ same
  · intro id inside
    obtain rfl := pagePath_inj.mp inside
    exact ⟨fun mem => Nat.lt_irrefl _ (sound.id_lt mem), Nat.lt_succ_self _⟩

/-- A page under the next number adds its entries. -/
theorem Sound.contents_appended (sound : store.Sound before entries) {last : PageStore}
    {fps : List Fingerprint} (ids : last.ids = store.ids ++ [store.nextId]) :
    last.contents (assign entries store.nextId fps) = store.contents entries ++ fps := by
  rw [contents, ids, List.flatMap_append, List.flatMap_singleton, assign_self]
  congr 1
  exact sound.contents_assign fps

/-- An appended page brings its entries; a refusal uses up a number at most. -/
theorem append_runs (volumeSound : before.Sound) (sound : store.Sound before entries)
    {fps : List Fingerprint} (nonempty : fps ≠ []) (ascending : Ascending fps)
    (room : store.nextId < numberLimit) :
    Keeping.Runs (append fps) store before (At (store.pagePath store.nextId)) NoFile
      (fun _ last after => last.Sound after (assign entries store.nextId fps) ∧
        last.ids = store.ids ++ [store.nextId] ∧ last.nextId = store.nextId + 1 ∧
        last.directory = store.directory ∧ last.limits = store.limits)
      fun last after => last.Sound after entries ∧
        last = { store with nextId := store.nextId + 1 } := by
  rw [append, if_neg (by simpa using nonempty)]
  apply Keeping.Runs.modifyGetThen
  apply Keeping.Runs.getThen
  have path : PageStore.pagePath { store with nextId := store.nextId + 1 } store.nextId =
      store.directory.child (pageName store.nextId) := rfl
  have written := writeList_runs volumeSound sound.isDir (pageName_fits room)
    (sound.free store.nextId (Nat.le_refl _)) .page store.limits.durable store.limits.stride fps
  apply Keeping.Runs.liftThen written
  · exact fun after changes => ⟨sound.allocated_of_changes volumeSound changes, rfl⟩
  · rintro file after changes ⟨holds, pathEq, describes⟩
    have allocated := (sound.assigned fps).allocated_of_changes volumeSound changes
    have idsEq : (store.add (Page.ofWritten store.nextId store.limits.stride file)).ids =
        store.ids ++ [store.nextId] := by
      rw [ids, add, Page.withinBudget_ids, List.map_append]
      rfl
    have fresh : store.nextId ∉ store.ids := fun mem => Nat.lt_irrefl _ (sound.id_lt mem)
    have describesNext : (Page.ofWritten store.nextId store.limits.stride file).Describes
        (assign entries store.nextId fps store.nextId) := by
      rw [assign_self]
      exact Page.ofWritten_describes ascending sound.stride describes
    have filedNext : Holds after file.path .page (assign entries store.nextId fps store.nextId)
        before.contents.size := by
      rw [assign_self, pathEq]
      exact holds
    have counted : store.entries + file.count = ((store.ids ++ [store.nextId]).flatMap
        (assign entries store.nextId fps)).length := by
      rw [List.flatMap_append, List.length_append, List.flatMap_singleton, assign_self,
        describes.count, sound.counted, ← sound.contents_assign fps]
      rfl
    have added : Sound after (assign entries store.nextId fps)
        (add { store with nextId := store.nextId + 1 }
          (Page.ofWritten store.nextId store.limits.stride file)) :=
      allocated.repaged (fun _ mem => mem) (nodup_snoc sound.distinct fresh)
        (Nat.lt_succ_self _) pathEq describesNext ⟨_, filedNext⟩ counted
    exact Keeping.Runs.modifying ⟨added, idsEq, rfl, rfl, rfl⟩

/-! ## Probing -/

/-- The store with other handles open. -/
def SameButHandles (store other : PageStore) : Prop :=
  other = { store with handles := other.handles }

theorem SameButHandles.pages {other : PageStore} (same : store.SameButHandles other) :
    other.pages = store.pages := by
  rw [SameButHandles] at same
  rw [same]

theorem SameButHandles.ids {other : PageStore} (same : store.SameButHandles other) :
    other.ids = store.ids := by
  rw [PageStore.ids, PageStore.ids, same.pages]

theorem SameButHandles.pagePath {other : PageStore} (same : store.SameButHandles other)
    (id : PageId) : other.pagePath id = store.pagePath id := by
  rw [SameButHandles] at same
  rw [same]
  rfl

theorem SameButHandles.nextId {other : PageStore} (same : store.SameButHandles other) :
    other.nextId = store.nextId := by
  rw [SameButHandles] at same
  rw [same]

theorem SameButHandles.compactions {other : PageStore} (same : store.SameButHandles other) :
    other.compactions = store.compactions := by
  rw [SameButHandles] at same
  rw [same]

theorem SameButHandles.directory {other : PageStore} (same : store.SameButHandles other) :
    other.directory = store.directory := by
  rw [SameButHandles] at same
  rw [same]

theorem SameButHandles.limits {other : PageStore} (same : store.SameButHandles other) :
    other.limits = store.limits := by
  rw [SameButHandles] at same
  rw [same]

theorem SameButHandles.trans {first second third : PageStore} (same : first.SameButHandles second)
    (more : second.SameButHandles third) : first.SameButHandles third := by
  rw [SameButHandles] at same more ⊢
  rw [more, same]

theorem SameButHandles.contents {other : PageStore} (same : store.SameButHandles other)
    (entries : PageId → List Fingerprint) : other.contents entries = store.contents entries := by
  rw [PageStore.contents, PageStore.contents, same.ids]

/-- Whatever handles are open, they read the lists of their numbers. -/
theorem Sound.rehandled {handles : HandleCache} (sound : store.Sound before entries)
    (opened : ∀ id handle, (id, handle) ∈ handles.entries → id < store.nextId ∧
      ∃ file, handle = .file file ∧ file < before.contents.size ∧
        before.read file = fileBytes .page (entries id)) :
    Sound before entries { store with handles } :=
  { sound with opened }

theorem mem_of_lookup {items : List (PageId × Handle)} {id : PageId} {handle : Handle}
    (found : items.lookup id = some handle) : (id, handle) ∈ items := by
  obtain ⟨first, rest, rfl, -⟩ := List.lookup_eq_some_iff.mp found
  simp

/-- The handle of a page reads the list of its number. -/
theorem handleOf_runs (volumeSound : before.Sound) (sound : store.Sound before entries)
    {page : Page} (mem : page ∈ store.pages) :
    Keeping.Runs (handleOf page) store before Nowhere NoFile
      (fun handle last after => last.Sound after entries ∧ store.SameButHandles last ∧
        ∃ file, handle = .file file ∧ after.read file = fileBytes .page (entries page.id))
      fun last after => last.Sound after entries ∧ store.SameButHandles last := by
  apply Keeping.Runs.getThen
  cases found : store.handles.find? page.id with
  | some handle =>
      have cached := mem_of_lookup found
      obtain ⟨below, file, rfl, known, bytes⟩ := sound.opened _ _ cached
      apply Keeping.Runs.modifyThen
      apply Keeping.Runs.pure
      refine ⟨?_, rfl, file, rfl, bytes⟩
      apply sound.rehandled
      intro id handle touched
      rcases List.mem_cons.mp touched with same | older
      · cases same
        exact ⟨below, file, rfl, known, bytes⟩
      · exact sound.opened id handle (List.mem_filter.mp older).1
  | none =>
      obtain ⟨file, holds⟩ := sound.filed page mem
      have known := volumeSound.stored _ _ holds.bound
      apply Keeping.Runs.liftThen (Activity.runs (openFile_runs volumeSound holds.bound))
      · exact fun after changes => ⟨sound.of_nothing volumeSound changes, rfl⟩
      · rintro _ after changes rfl
        have bytes : after.read file = fileBytes .page (entries page.id) := by
          rw [changes.read_eq file known fun none => none, holds.bytes]
        apply Keeping.Runs.modifyThen
        apply Keeping.Runs.pure
        refine ⟨?_, rfl, file, rfl, bytes⟩
        apply (sound.of_nothing volumeSound changes).rehandled
        intro id handle inserted
        rcases List.mem_cons.mp (List.mem_of_mem_take inserted) with same | older
        · cases same
          exact ⟨sound.numbered page mem, file, rfl, Nat.lt_of_lt_of_le known changes.size_le, bytes⟩
        · exact (sound.of_nothing volumeSound changes).opened id handle older

theorem probePage_runs (volumeSound : before.Sound) (sound : store.Sound before entries)
    {page : Page} (mem : page ∈ store.pages) (fp : Fingerprint) :
    Keeping.Runs (probePage page fp) store before Nowhere NoFile
      (fun answer last after => last.Sound after entries ∧ store.SameButHandles last ∧
        (answer = true ↔ fp ∈ entries page.id))
      fun last after => last.Sound after entries ∧ store.SameButHandles last := by
  have describes := sound.describes page mem
  have tells := Page.locate_tells describes fp
  rw [probePage]
  cases located : page.locate fp with
  | absent =>
      rw [located] at tells
      exact Keeping.Runs.pure ⟨sound, rfl, iff_of_false Bool.false_ne_true tells⟩
  | present =>
      rw [located] at tells
      exact Keeping.Runs.pure ⟨sound, rfl, iff_of_true rfl tells⟩
  | block start length =>
      rw [located] at tells
      obtain ⟨-, inside, decides⟩ := tells
      apply Keeping.Runs.bind (handleOf_runs volumeSound sound mem)
      rintro _ opened after changes ⟨openedSound, same, file, rfl, bytes⟩
      have afterSound := changes.sound volumeSound
      apply Keeping.Runs.liftThen (Activity.runs (Page.readBlock_runs bytes inside))
      · exact fun final more => ⟨openedSound.of_nothing afterSound more, same⟩
      · intro block final more spelled
        apply Keeping.Runs.pure
        refine ⟨openedSound.of_nothing afterSound more, same, ?_⟩
        have pieceAscending : Ascending (((entries page.id).drop start).take length) :=
          (describes.ascending.drop start).take length
        rw [Page.searchBlock_iff spelled pieceAscending fp, decides]

theorem probePages_runs (volumeSound : before.Sound) (sound : store.Sound before entries)
    (fp : Fingerprint) (pages : List Page) (sub : ∀ page ∈ pages, page ∈ store.pages) :
    Keeping.Runs (probePages fp pages) store before Nowhere NoFile
      (fun answer last after => last.Sound after entries ∧ store.SameButHandles last ∧
        (answer = true ↔ ∃ page ∈ pages, fp ∈ entries page.id))
      fun last after => last.Sound after entries ∧ store.SameButHandles last := by
  induction pages generalizing store before with
  | nil => exact Keeping.Runs.pure ⟨sound, rfl, by simp⟩
  | cons page pages ih =>
      rw [List.forall_mem_cons] at sub
      apply Keeping.Runs.bind (probePage_runs volumeSound sound sub.1 fp)
      rintro answer probed after changes ⟨probedSound, same, decides⟩
      cases answer with
      | true =>
          apply Keeping.Runs.pure
          exact ⟨probedSound, same, iff_of_true rfl ⟨page, List.mem_cons_self, decides.mp rfl⟩⟩
      | false =>
          have notHere : fp ∉ entries page.id := fun mem => Bool.false_ne_true (decides.mpr mem)
          have others := ih (changes.sound volumeSound) probedSound fun other mem =>
            same.pages ▸ sub.2 other mem
          apply others.mono
          · rintro answer last final _ ⟨lastSound, lastSame, lastDecides⟩
            refine ⟨lastSound, same.trans lastSame, ?_⟩
            rw [lastDecides]
            simp [notHere]
          · rintro last final _ ⟨lastSound, lastSame⟩
            exact ⟨lastSound, same.trans lastSame⟩

/-- Probing a store tells whether any of its pages holds the fingerprint. -/
theorem probe_runs (volumeSound : before.Sound) (sound : store.Sound before entries)
    (fp : Fingerprint) :
    Keeping.Runs (probe fp) store before Nowhere NoFile
      (fun answer last after => last.Sound after entries ∧ store.SameButHandles last ∧
        (answer = true ↔ fp ∈ store.contents entries))
      fun last after => last.Sound after entries ∧ store.SameButHandles last := by
  apply Keeping.Runs.getThen
  apply (probePages_runs volumeSound sound fp store.pages.reverse (by simp)).mono
  · rintro answer last after _ ⟨lastSound, same, decides⟩
    refine ⟨lastSound, same, ?_⟩
    rw [decides, mem_contents]
    simp
  · exact fun _ _ _ bad => bad

/-! ## Growing -/

/-- A store later on, whatever became of its pages and handles: the numbers given out before
stand for what they stood for. -/
structure Continues (entries : PageId → List Fingerprint) (store : PageStore)
    (others : PageId → List Fingerprint) (last : PageStore) : Prop where
  directory : last.directory = store.directory
  limits : last.limits = store.limits
  nextId_le : store.nextId ≤ last.nextId
  same : ∀ id, id < store.nextId → others id = entries id

theorem Continues.pagePath {others : PageId → List Fingerprint} {last : PageStore}
    (goesOn : Continues entries store others last) (id : PageId) :
    last.pagePath id = store.pagePath id := by
  rw [pagePath_eq, pagePath_eq, goesOn.directory]

theorem Continues.trans {others more : PageId → List Fingerprint} {last final : PageStore}
    (first : Continues entries store others last) (second : Continues others last more final) :
    Continues entries store more final where
  directory := second.directory.trans first.directory
  limits := second.limits.trans first.limits
  nextId_le := Nat.le_trans first.nextId_le second.nextId_le
  same id below := (second.same id (Nat.lt_of_lt_of_le below first.nextId_le)).trans
    (first.same id below)

/-- A store after pages were added to it, whatever became of the handles. -/
structure Extends (entries : PageId → List Fingerprint) (store : PageStore)
    (others : PageId → List Fingerprint) (last : PageStore) : Prop
    extends Continues entries store others last where
  ids : ∃ added, last.ids = store.ids ++ added ∧ ∀ id ∈ added, store.nextId ≤ id

theorem Extends.refl (entries : PageId → List Fingerprint) (store : PageStore) :
    Extends entries store entries store where
  directory := rfl
  limits := rfl
  nextId_le := Nat.le_refl _
  same _ _ := rfl
  ids := ⟨[], (List.append_nil _).symm, by simp⟩

theorem Extends.trans {others more : PageId → List Fingerprint} {last final : PageStore}
    (first : Extends entries store others last) (second : Extends others last more final) :
    Extends entries store more final where
  toContinues := first.toContinues.trans second.toContinues
  ids := by
    obtain ⟨added, idsEq, above⟩ := first.ids
    obtain ⟨more, moreEq, moreAbove⟩ := second.ids
    refine ⟨added ++ more, by rw [moreEq, idsEq, List.append_assoc], ?_⟩
    intro id mem
    rcases List.mem_append.mp mem with mem | mem
    · exact above id mem
    · exact Nat.le_trans first.nextId_le (moreAbove id mem)

theorem Extends.mem {others : PageId → List Fingerprint} {last : PageStore}
    (grows : Extends entries store others last) {id : PageId} (mem : id ∈ store.ids) :
    id ∈ last.ids := by
  obtain ⟨added, idsEq, -⟩ := grows.ids
  rw [idsEq]
  exact List.mem_append_left _ mem

theorem Extends.not_mem {others : PageId → List Fingerprint} {last : PageStore}
    (grows : Extends entries store others last) {id : PageId} (below : id < store.nextId)
    (absent : id ∉ store.ids) : id ∉ last.ids := by
  obtain ⟨added, idsEq, above⟩ := grows.ids
  rw [idsEq, List.mem_append]
  rintro (mem | mem)
  · exact absent mem
  · exact Nat.not_lt.mpr (above id mem) below

/-- A number given out leaves all older numbers as they were. -/
theorem extends_allocated {others : PageId → List Fingerprint}
    (same : ∀ id, id < store.nextId → others id = entries id) :
    Extends entries store others { store with nextId := store.nextId + 1 } where
  directory := rfl
  limits := rfl
  nextId_le := Nat.le_succ _
  same := same
  ids := ⟨[], (List.append_nil _).symm, by simp⟩

/-- A page is added under the number just given out. -/
theorem extends_appended {last : PageStore} {fps : List Fingerprint}
    (ids : last.ids = store.ids ++ [store.nextId]) (nextId : last.nextId = store.nextId + 1)
    (directory : last.directory = store.directory) (limits : last.limits = store.limits) :
    Extends entries store (assign entries store.nextId fps) last where
  directory := directory
  limits := limits
  nextId_le := nextId ▸ Nat.le_succ _
  same _ below := assign_ne entries fps (Nat.ne_of_lt below)
  ids := ⟨[store.nextId], ids, by simp⟩

theorem SameButHandles.extends {other : PageStore} (same : store.SameButHandles other)
    (entries : PageId → List Fingerprint) : Extends entries store entries other where
  directory := same.directory
  limits := same.limits
  nextId_le := Nat.le_of_eq same.nextId.symm
  same _ _ := rfl
  ids := ⟨[], by rw [same.ids, List.append_nil], by simp⟩

end PageStore

end FingerprintSet
