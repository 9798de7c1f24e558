import FingerprintSet.Page
import FingerprintSet.Proofs.Ascending
import FingerprintSet.Proofs.SortedFile.Writing

/-!
# Looking a fingerprint up in a page

A page describes the entries of its file: their number, the ends, and a sample of them.  From
that alone a fingerprint is found to be absent, to be present, or to be in one block if it is
anywhere, and searching that block decides.  Thinning an index loses nothing of this.
-/

namespace FingerprintSet

open Storage SortedFile

/-! ## Places in an ascending list -/

theorem getD_eq {fps : List Fingerprint} {place : Nat} (inside : place < fps.length) :
    fps.getD place 0 = fps[place] :=
  (List.getElem_eq_getD 0).symm

namespace Ascending

variable {fps : List Fingerprint}

theorem getD_lt (ascending : Ascending fps) {first second : Nat} (below : first < second)
    (inside : second < fps.length) : fps.getD first 0 < fps.getD second 0 := by
  have firstInside := Nat.lt_trans below inside
  rw [getD_eq inside, getD_eq firstInside]
  exact List.pairwise_iff_getElem.mp ascending first second firstInside inside below

theorem getD_le (ascending : Ascending fps) {first second : Nat} (below : first ≤ second)
    (inside : second < fps.length) : fps.getD first 0 ≤ fps.getD second 0 := by
  rcases Nat.lt_or_eq_of_le below with below | rfl
  · exact UInt64.le_of_lt (ascending.getD_lt below inside)
  · exact UInt64.le_refl _

/-- The place of an entry that is below the one at another place is before that place. -/
theorem lt_of_getD_lt (ascending : Ascending fps) {first second : Nat}
    (inside : first < fps.length) (below : fps.getD first 0 < fps.getD second 0) :
    first < second := by
  apply Nat.lt_of_not_le
  intro above
  exact UInt64.not_le.mpr below (ascending.getD_le above inside)

end Ascending

theorem mem_iff_getD {fps : List Fingerprint} {fp : Fingerprint} :
    fp ∈ fps ↔ ∃ place, place < fps.length ∧ fps.getD place 0 = fp := by
  rw [List.mem_iff_getElem]
  constructor
  · rintro ⟨place, inside, equal⟩
    exact ⟨place, inside, by rw [getD_eq inside, equal]⟩
  · rintro ⟨place, inside, equal⟩
    exact ⟨place, inside, by rw [← getD_eq inside, equal]⟩

theorem mem_block_iff {fps : List Fingerprint} {fp : Fingerprint} {start length : Nat} :
    fp ∈ (fps.drop start).take length ↔
      ∃ place, start ≤ place ∧ place < start + length ∧ place < fps.length ∧
        fps.getD place 0 = fp := by
  rw [List.mem_take_iff_getElem]
  constructor
  · rintro ⟨offset, inside, equal⟩
    rw [List.length_drop] at inside
    have there : start + offset < fps.length := by omega
    refine ⟨start + offset, Nat.le_add_right _ _, by omega, there, ?_⟩
    rw [getD_eq there, ← equal, List.getElem_drop]
  · rintro ⟨place, above, below, inside, equal⟩
    refine ⟨place - start, by rw [List.length_drop]; omega, ?_⟩
    have sum : start + (place - start) = place := Nat.add_sub_of_le above
    simp only [List.getElem_drop, sum, ← equal, getD_eq inside]

namespace Page

/-- What is known of a page is true of the entries in its file. -/
structure Describes (page : Page) (fps : List Fingerprint) : Prop where
  ascending : Ascending fps
  count : page.count = fps.length
  least : page.least = fps.head?.getD 0xffffffffffffffff
  greatest : page.greatest = fps.getLast?.getD 0
  positive : 0 < page.stride
  sampled : Samples page.stride page.index fps

theorem ofWritten_describes {id : PageId} {stride : Nat} {written : Written}
    {fps : List Fingerprint} (ascending : Ascending fps) (positive : 0 < stride)
    (describes : written.Describes stride fps) : (ofWritten id stride written).Describes fps where
  ascending := ascending
  count := describes.count
  least := by rw [ofWritten, describes.first]
  greatest := by rw [ofWritten, describes.last]
  positive := positive
  sampled := describes.sampled positive

/-! ## The block of a fingerprint -/

/-- The slot found is the last one that does not exceed the fingerprint, or the first slot. -/
theorem floorSlot_spec {index : Array Fingerprint} {fp : Fingerprint} {base size : Nat}
    (ordered : ∀ first second, first ≤ second → second < index.size →
      index.getD first 0 ≤ index.getD second 0)
    (some : 0 < size) (inside : base + size ≤ index.size) :
    base ≤ floorSlot index fp base size ∧ floorSlot index fp base size < base + size ∧
      (floorSlot index fp base size = base ∨
        index.getD (floorSlot index fp base size) 0 ≤ fp) ∧
      ∀ slot, floorSlot index fp base size < slot → slot < base + size →
        fp < index.getD slot 0 := by
  fun_induction floorSlot index fp base size with
  | case1 base size single =>
      refine ⟨Nat.le_refl _, by omega, Or.inl rfl, ?_⟩
      intro slot above below
      omega
  | case2 base size several half middle ih =>
      have halfEq : half = size / 2 := rfl
      have middleEq : middle = base + half := rfl
      split at ih
      · rename_i exceeds
        obtain ⟨above, below, atMost, beyond⟩ := ih (by omega) (by omega)
        rw [if_pos exceeds]
        refine ⟨above, by omega, atMost, ?_⟩
        intro slot after before
        rcases Nat.lt_or_ge slot (base + (size - half)) with near | far
        · exact beyond slot after near
        · exact UInt64.lt_of_lt_of_le exceeds (ordered middle slot (by omega) (by omega))
      · rename_i reaches
        obtain ⟨above, below, atMost, beyond⟩ := ih (by omega) (by omega)
        rw [if_neg reaches]
        refine ⟨by omega, by omega, Or.inr ?_, ?_⟩
        · rcases atMost with same | atMost
          · rw [same]
            exact UInt64.not_lt.mp reaches
          · exact atMost
        · intro slot after before
          exact beyond slot after (by omega)

/-- What a page can say of a fingerprint without a look at its file. -/
def Tells (fps : List Fingerprint) (fp : Fingerprint) : Whereabouts → Prop
  | .absent => fp ∉ fps
  | .present => fp ∈ fps
  | .block start length => 0 < length ∧ start + length ≤ fps.length ∧
      (fp ∈ fps ↔ fp ∈ (fps.drop start).take length)

theorem Describes.sample_le {page : Page} {fps : List Fingerprint} (describes : page.Describes fps)
    {first second : Nat} (below : first ≤ second) (inside : second < page.index.size) :
    page.index.getD first 0 ≤ page.index.getD second 0 := by
  have samples := describes.sampled
  rw [samples.entry first (Nat.lt_of_le_of_lt below inside), samples.entry second inside]
  exact describes.ascending.getD_le (Nat.mul_le_mul_right _ below)
    ((samples.covers second).mp inside)

theorem least_le {fps : List Fingerprint} (ascending : Ascending fps) {fp : Fingerprint}
    (mem : fp ∈ fps) (default : Fingerprint) : fps.head?.getD default ≤ fp := by
  cases fps with
  | nil => exact absurd mem List.not_mem_nil
  | cons first rest =>
      rcases List.mem_cons.mp mem with rfl | later
      · exact UInt64.le_refl _
      · exact UInt64.le_of_lt (List.rel_of_pairwise_cons ascending later)

theorem le_greatest {fps : List Fingerprint} (ascending : Ascending fps) {fp : Fingerprint}
    (mem : fp ∈ fps) (default : Fingerprint) : fp ≤ fps.getLast?.getD default := by
  obtain ⟨place, inside, rfl⟩ := mem_iff_getD.mp mem
  have last : fps.getLast?.getD default = fps.getD (fps.length - 1) 0 := by
    rw [List.getLast?_eq_getElem?, List.getD_eq_getElem?_getD,
      List.getElem?_eq_getElem (by omega)]
    rfl
  rw [last]
  exact ascending.getD_le (by omega) (by omega)

/-- A fingerprint between two samples can only stand between their places. -/
theorem Describes.mem_block {page : Page} {fps : List Fingerprint} (describes : page.Describes fps)
    {fp : Fingerprint} {slot : Nat} (start : slot * page.stride < fps.length)
    (after : fps.getD (slot * page.stride) 0 < fp)
    (beyond : ∀ next, slot < next → next < page.index.size → fp < page.index.getD next 0) :
    fp ∈ fps ↔ fp ∈ (fps.drop (slot * page.stride)).take
      (min (fps.length - slot * page.stride) page.stride) := by
  rw [mem_iff_getD, mem_block_iff]
  constructor
  · rintro ⟨place, inside, equal⟩
    have later : slot * page.stride < place :=
      describes.ascending.lt_of_getD_lt start (by rw [equal]; exact after)
    have near : place < (slot + 1) * page.stride := by
      apply Nat.lt_of_not_le
      intro far
      have next := (describes.sampled.covers (slot + 1)).mpr (Nat.lt_of_le_of_lt far inside)
      have exceeds := beyond (slot + 1) (Nat.lt_succ_self _) next
      rw [describes.sampled.entry _ next, ← equal] at exceeds
      exact UInt64.not_le.mpr exceeds (describes.ascending.getD_le far inside)
    rw [Nat.add_mul, Nat.one_mul] at near
    exact ⟨place, by omega, by omega, inside, equal⟩
  · rintro ⟨place, -, -, inside, equal⟩
    exact ⟨place, inside, equal⟩

/-- What a page says of a fingerprint is so. -/
theorem locate_tells {page : Page} {fps : List Fingerprint} (describes : page.Describes fps)
    (fp : Fingerprint) : Tells fps fp (page.locate fp) := by
  have ascending := describes.ascending
  have samples := describes.sampled
  have positive := describes.positive
  rw [locate]
  split
  · rename_i outside
    intro mem
    have nonempty := List.length_pos_of_mem mem
    rcases outside with empty | below | above | unsampled
    · rw [describes.count] at empty
      omega
    · rw [describes.least] at below
      exact UInt64.not_le.mpr below (least_le ascending mem _)
    · rw [describes.greatest] at above
      exact UInt64.not_le.mpr above (le_greatest ascending mem _)
    · have first := (samples.covers 0).mpr (by omega)
      rw [Array.isEmpty_iff_size_eq_zero.mp unsampled] at first
      omega
  · rename_i inside
    simp only [not_or, UInt64.not_lt] at inside
    obtain ⟨nonempty, leastLe, leGreatest, sampled⟩ := inside
    have some : 0 < page.index.size := by
      apply Nat.pos_of_ne_zero
      exact fun zero => sampled (Array.isEmpty_iff_size_eq_zero.mpr zero)
    obtain ⟨-, below, atMost, beyond⟩ :=
      @floorSlot_spec _ fp _ _ (fun _ _ => describes.sample_le) some (Nat.le_of_eq (Nat.zero_add _))
    generalize slotEq : floorSlot page.index fp 0 page.index.size = slot at below atMost beyond ⊢
    rw [Nat.zero_add] at below beyond
    have start := (samples.covers slot).mp below
    have entry := samples.entry slot below
    simp only [entry]
    split
    · rename_i here
      exact mem_iff_getD.mpr ⟨_, start, here⟩
    · rename_i elsewhere
      split
      · rename_i before
        exfalso
        rcases atMost with rfl | atMost
        · rw [Nat.zero_mul] at before
          have head : fps.getD 0 0 = page.least := by
            rw [describes.least]
            cases fps with
            | nil => exact absurd describes.count nonempty
            | cons => rfl
          rw [head] at before
          exact UInt64.not_le.mpr before leastLe
        · rw [entry] at atMost
          exact UInt64.not_le.mpr before atMost
      · rename_i notBefore
        have after : fps.getD (slot * page.stride) 0 < fp :=
          UInt64.lt_of_le_of_ne (UInt64.not_lt.mp notBefore) elsewhere
        rw [describes.count]
        exact ⟨by omega, by omega, describes.mem_block start after beyond⟩

/-! ## Searching a block -/

theorem searchBetween_iff {block : Bytes} {words : List Fingerprint}
    (spelled : block.toList = Word.allBytes words) (ascending : Ascending words)
    (fp : Fingerprint) {low high : Nat} (inside : high ≤ words.length) :
    searchBetween block fp low high = true ↔
      ∃ place, low ≤ place ∧ place < high ∧ words.getD place 0 = fp := by
  have entryAt {place : Nat} (placeInside : place < words.length) :
      Word.ofBytesAt block (place * entryLength) = words.getD place 0 := by
    rw [getD_eq placeInside]
    exact Word.ofBytesAt_allBytes spelled placeInside
  fun_induction searchBetween block fp low high with
  | case1 low high some middle entry found =>
      have middleEq : middle = low + (high - low) / 2 := rfl
      have entryEq : entry = words.getD middle 0 := entryAt (by omega)
      refine iff_of_true rfl ⟨middle, by omega, by omega, ?_⟩
      rw [← entryEq, found]
  | case2 low high some middle entry different below ih =>
      have middleEq : middle = low + (high - low) / 2 := rfl
      have entryEq : entry = words.getD middle 0 := entryAt (by omega)
      refine (ih inside).trans ?_
      constructor
      · rintro ⟨place, above, before, equal⟩
        exact ⟨place, by omega, before, equal⟩
      · rintro ⟨place, above, before, equal⟩
        refine ⟨place, ?_, before, equal⟩
        apply ascending.lt_of_getD_lt (by omega)
        rw [← entryEq, equal]
        exact below
  | case3 low high some middle entry different notBelow ih =>
      have middleEq : middle = low + (high - low) / 2 := rfl
      have entryEq : entry = words.getD middle 0 := entryAt (by omega)
      have above : fp < entry := UInt64.lt_of_le_of_ne (UInt64.not_lt.mp notBelow) (Ne.symm different)
      refine (ih (by omega)).trans ?_
      constructor
      · rintro ⟨place, after, before, equal⟩
        exact ⟨place, after, by omega, equal⟩
      · rintro ⟨place, after, before, equal⟩
        refine ⟨place, after, ?_, equal⟩
        apply ascending.lt_of_getD_lt (by omega)
        rw [← entryEq, equal]
        exact above
  | case4 low high empty =>
      refine iff_of_false Bool.false_ne_true ?_
      rintro ⟨place, above, before, -⟩
      omega

/-- Searching a block of ascending entries finds exactly these. -/
theorem searchBlock_iff {block : Bytes} {words : List Fingerprint}
    (spelled : block.toList = Word.allBytes words) (ascending : Ascending words)
    (fp : Fingerprint) : searchBlock block fp = true ↔ fp ∈ words := by
  have size : block.size / entryLength = words.length := by
    rw [← Array.length_toList, spelled, Word.length_allBytes, entryLength]
    omega
  rw [searchBlock, size, searchBetween_iff spelled ascending fp (Nat.le_refl _), mem_iff_getD]
  simp

/-- The block that is read from the file is that piece of the entries. -/
theorem block_spelled {kind : Kind} {fps : List Fingerprint} {start length : Nat} :
    ((fileBytes kind fps).extract (entryPosition start)
      (entryPosition start + length * entryLength)).toList =
        Word.allBytes ((fps.drop start).take length) := by
  have position : entryPosition start = headerLength + 8 * start := by
    rw [entryPosition, entryLength, Nat.mul_comm]
  rw [Array.toList_extract, List.extract_eq_take_drop, Nat.add_sub_cancel_left, position,
    ← List.drop_drop, drop_fileBytes, Word.drop_allBytes, Nat.mul_comm, entryLength,
    Word.take_allBytes]

theorem readBlock_runs {before : Volume} {id : FileId} {kind : Kind} {fps : List Fingerprint}
    {start length : Nat} (bytes : before.read id = fileBytes kind fps)
    (inside : start + length ≤ fps.length) :
    Runs (readBlock (.file id) start length) before Volume.Nowhere Volume.NoFile fun block _ =>
      block.toList = Word.allBytes ((fps.drop start).take length) := by
  apply Runs.bind (readAt_runs id (entryPosition start) (length * entryLength))
  rintro block after _ blockEq
  rw [bytes] at blockEq
  have spelled : block.toList = Word.allBytes ((fps.drop start).take length) := by
    rw [blockEq, block_spelled]
  have size : block.size = length * entryLength := by
    rw [← Array.length_toList, spelled, Word.length_allBytes, List.length_take, List.length_drop,
      entryLength]
    omega
  rw [if_neg (by omega)]
  exact Runs.pure spelled

/-! ## Thinning -/

theorem getElem?_everyOther {α : Type} (items : List α) (place : Nat) :
    (everyOther items)[place]? = items[2 * place]? := by
  fun_induction everyOther items generalizing place with
  | case1 => simp
  | case2 a => cases place <;> simp
  | case3 a b rest ih =>
      cases place with
      | zero => rfl
      | succ place => simpa [Nat.mul_succ] using ih place

theorem samples_everyOther {stride : Nat} {index : Array Fingerprint} {fps : List Fingerprint}
    (samples : Samples stride index fps) :
    Samples (stride * 2) (everyOther index.toList).toArray fps := by
  have place_lt (place : Nat) :
      place < (everyOther index.toList).length ↔ 2 * place < index.size := by
    rw [← Nat.not_le, ← List.getElem?_eq_none_iff, getElem?_everyOther,
      List.getElem?_eq_none_iff, Nat.not_le, Array.length_toList]
  have product (place : Nat) : place * (stride * 2) = 2 * place * stride := by
    rw [Nat.mul_comm stride, ← Nat.mul_assoc, Nat.mul_comm place]
  constructor
  · intro place
    rw [List.size_toArray, place_lt, samples.covers, product]
  · intro place inside
    rw [List.size_toArray, place_lt] at inside
    rw [product, ← samples.entry _ inside, Array.getD_eq_getD_getElem?, List.getElem?_toArray,
      getElem?_everyOther, Array.getD_eq_getD_getElem?, Array.getElem?_toList]

theorem thin_describes {page : Page} {fps : List Fingerprint} (describes : page.Describes fps) :
    page.thin.Describes fps :=
  { describes with
    positive := Nat.mul_pos describes.positive Nat.zero_lt_two
    sampled := samples_everyOther describes.sampled }

/-- What thinning leaves as it is. -/
def face (page : Page) : PageId × Path × Nat :=
  (page.id, page.path, page.count)

theorem thinLast_face (size : Nat) (pages : List Page) :
    (thinLast size pages).map face = pages.map face := by
  fun_induction thinLast size pages with
  | case1 => rfl
  | case2 page rest _ ih => rw [List.map_cons, List.map_cons, ih]
  | case3 => rfl
  | case4 => rfl

section Keeping

variable {property : Page → Prop} {pages : List Page}

/-- What thinning keeps of one page is kept of all pages when one of them is thinned. -/
theorem forall_thinLast (keeps : ∀ page, property page → property page.thin) (size : Nat)
    (all : ∀ page ∈ pages, property page) : ∀ page ∈ thinLast size pages, property page := by
  fun_induction thinLast size pages with
  | case1 => exact all
  | case2 page rest _ ih =>
      rw [List.forall_mem_cons] at all ⊢
      exact ⟨all.1, ih all.2⟩
  | case3 page rest =>
      rw [List.forall_mem_cons] at all ⊢
      exact ⟨keeps page all.1, all.2⟩
  | case4 => exact all

/-- What thinning keeps of one page is kept of all pages however often indexes are thinned. -/
theorem forall_withinBudget (keeps : ∀ page, property page → property page.thin) (budget : Nat)
    (all : ∀ page ∈ pages, property page) : ∀ page ∈ withinBudget budget pages, property page := by
  rw [withinBudget]
  generalize indexEntries pages = bound
  fun_induction fitIndexes budget bound pages with
  | case1 => exact all
  | case2 => exact all
  | case3 => exact all
  | case4 bound pages _ _ ih => exact ih (forall_thinLast keeps _ all)

end Keeping

theorem withinBudget_face (budget : Nat) (pages : List Page) :
    (withinBudget budget pages).map face = pages.map face := by
  rw [withinBudget]
  generalize indexEntries pages = bound
  fun_induction fitIndexes budget bound pages with
  | case1 => rfl
  | case2 => rfl
  | case3 => rfl
  | case4 bound pages _ _ ih => rw [ih, thinLast_face]

theorem mem_withinBudget {budget : Nat} {pages : List Page} {page : Page}
    (mem : page ∈ withinBudget budget pages) :
    ∃ old ∈ pages, old.id = page.id ∧ old.path = page.path := by
  have faces : page.face ∈ (withinBudget budget pages).map face := List.mem_map_of_mem mem
  rw [withinBudget_face] at faces
  obtain ⟨old, oldMem, same⟩ := List.mem_map.mp faces
  simp only [face, Prod.mk.injEq] at same
  exact ⟨old, oldMem, same.1, same.2.1⟩

theorem withinBudget_ids (budget : Nat) (pages : List Page) :
    (withinBudget budget pages).map (·.id) = pages.map (·.id) := by
  have faces := congrArg (List.map Prod.fst) (withinBudget_face budget pages)
  simpa [List.map_map, Function.comp_def, face] using faces

/-- However often indexes are thinned, they go on describing their files. -/
theorem withinBudget_describes {entries : PageId → List Fingerprint} (budget : Nat)
    {pages : List Page} (describes : ∀ page ∈ pages, page.Describes (entries page.id)) :
    ∀ page ∈ withinBudget budget pages, page.Describes (entries page.id) :=
  @forall_withinBudget (fun page => page.Describes (entries page.id)) pages
    (fun _ => thin_describes) budget describes

end Page

end FingerprintSet
