import FingerprintSet.Proofs.Storage.Renaming

/-!
# Work on a part of a volume

A region names the paths that some work looks at, and those among them that it may change.  Work
that keeps to its region gives the same results on all volumes that look alike there, whatever
lies elsewhere and whatever the clock shows, and leaves all else as it is.  Both are one
judgement here, with a rule for each way of putting work together, and it does not depend on the
steps that are refused.
-/

namespace FingerprintSet.Storage

open Volume

/-! ## Contents -/

theorem read_write (volume : Volume) (id : FileId) (bytes : Bytes) (other : FileId) :
    (volume.write id bytes).read other =
      if id = other ∧ id < volume.contents.size then bytes else volume.read other := by
  simp only [Volume.read, Volume.write, Array.getD_eq_getD_getElem?, Array.getElem?_setIfInBounds]
  by_cases same : id = other
  · subst same
    by_cases known : id < volume.contents.size
    · simp [known]
    · simp [known]
  · simp [same]

/-- A file that was not created yet reads as an empty one. -/
theorem read_grown_eq (volume : Volume) (id : FileId) : volume.grown.read id = volume.read id := by
  have none (files : Array Bytes) (above : files.size ≤ id) : files.getD id #[] = #[] := by
    rw [Array.getD_eq_getD_getElem?, Array.getElem?_eq_none above, Option.getD_none]
  rcases Nat.lt_trichotomy id volume.contents.size with known | rfl | above
  · exact read_grown known
  · exact (read_grown_size volume).trans (none _ (Nat.le_refl _)).symm
  · exact (none _ (Nat.le_trans (Nat.le_of_eq (grown_size volume)) above)).trans
      (none _ (Nat.le_of_lt above)).symm

/-! ## Parts of a volume -/

/-- A part of a volume, and the files that are not in it. -/
structure Region where
  /-- The paths that are looked at. -/
  reads : Path → Prop
  /-- The paths that may change. -/
  writes : Path → Prop
  /-- The files that belong to others. -/
  others : FileId → Prop
  writes_reads : ∀ path, writes path → reads path
  reads_above : ∀ dir path, Within dir path → reads path → reads dir
  writes_within : ∀ dir path, Within dir path → writes dir → writes path

namespace Region

variable {region : Region} {first second middle after : Volume} {path : Path}

/-! ## Volumes that look alike -/

/-- A file that may be looked at, as long as so many files are known. -/
def Owns (region : Region) (files : Nat) (id : FileId) : Prop :=
  ¬region.others id ∧ id < files

theorem Owns.mono {few many : Nat} {id : FileId} (owns : region.Owns few id) (more : few ≤ many) :
    region.Owns many id :=
  owns.imp_right fun known => Nat.lt_of_lt_of_le known more

/-- Two volumes look alike in a region: its paths name the same, its files hold the same, and the
same steps will be refused.  What is only looked at is there, and no file of others has a name in
the region. -/
structure Alike (region : Region) (first second : Volume) : Prop where
  entry_eq : ∀ path, region.reads path → first.binding? path = second.binding? path
  read_eq : ∀ id, ¬region.others id → first.read id = second.read id
  size_eq : first.contents.size = second.contents.size
  refusals_eq : ∀ ticks, first.faults (first.clock + ticks) = second.faults (second.clock + ticks)
  there : ∀ path, region.reads path → ¬region.writes path → first.IsDir path
  noFile : ∀ path id, ¬region.writes path → region.reads path →
    first.binding? path ≠ some (.file id)
  own : ∀ path id, region.writes path → first.binding? path = some (.file id) →
    region.Owns first.contents.size id
  known : ∀ id, region.others id → id < first.contents.size

/-- What work in a region leaves as it was.  Files are only added. -/
structure Keeps (region : Region) (before after : Volume) : Prop where
  entry_eq : ∀ path, ¬region.writes path → after.binding? path = before.binding? path
  read_eq : ∀ id, region.others id → after.read id = before.read id
  size_le : before.contents.size ≤ after.contents.size

theorem Keeps.refl (volume : Volume) : region.Keeps volume volume :=
  ⟨fun _ _ => rfl, fun _ _ => rfl, Nat.le_refl _⟩

theorem Keeps.trans (keeps : region.Keeps first middle) (more : region.Keeps middle after) :
    region.Keeps first after where
  entry_eq path outside := (more.entry_eq path outside).trans (keeps.entry_eq path outside)
  read_eq id other := (more.read_eq id other).trans (keeps.read_eq id other)
  size_le := Nat.le_trans keeps.size_le more.size_le

namespace Alike

variable (alike : region.Alike first second)
include alike

theorem ticked : region.Alike first.ticked second.ticked where
  entry_eq := alike.entry_eq
  read_eq := alike.read_eq
  size_eq := alike.size_eq
  refusals_eq ticks := by
    have later := alike.refusals_eq (1 + ticks)
    rw [← Nat.add_assoc, ← Nat.add_assoc] at later
    exact later
  there := alike.there
  noFile := alike.noFile
  own := alike.own
  known := alike.known

theorem follow_eq (rest above : Path) (reads : region.reads (above ++ rest)) :
    first.follow above rest = second.follow above rest := by
  induction rest generalizing above with
  | nil => rfl
  | cons name rest ih =>
      have inner : above ++ name :: rest = above.child name ++ rest := by simp [Path.child]
      rw [inner] at reads
      have found : first.entries[above.child name]? = second.entries[above.child name]? :=
        alike.entry_eq _ (region.reads_above _ _ (Path.within_append _ _) reads)
      unfold follow
      rw [found, ih (above.child name) reads]

theorem find_eq (reads : region.reads path) : first.find path = second.find path := by
  have found : first.entries[path]? = second.entries[path]? := alike.entry_eq path reads
  rw [find, find, found, alike.follow_eq path [] reads]

theorem isDirectory_eq (reads : region.reads path) :
    first.isDirectory path = second.isDirectory path := by
  rw [isDirectory, isDirectory, alike.find_eq reads]

theorem isPresent_eq (reads : region.reads path) :
    first.isPresent path = second.isPresent path := by
  rw [isPresent, isPresent, alike.find_eq reads]

/-- Items that both volumes have are listed alike. -/
theorem filter_eq {chosen : Path × Entry → Bool} (reads : ∀ item, chosen item → region.reads item.1) :
    first.entries.toList.filter chosen = second.entries.toList.filter chosen := by
  have ordered (volume : Volume) : (volume.entries.toList.filter chosen).Pairwise
      fun a b => compare a.1 b.1 = .lt :=
    Std.TreeMap.ordered_keys_toList.filter _
  have distinct (volume : Volume) : (volume.entries.toList.filter chosen).Nodup :=
    (ordered volume).imp fun {a b} before same =>
      absurd before (by rw [same, Std.compare_self]; decide)
  refine List.Perm.eq_of_pairwise ?_ (ordered first) (ordered second)
    ((List.perm_ext_iff_of_nodup (distinct first) (distinct second)).mpr fun item => ?_)
  · exact fun a b _ _ before behind => absurd behind (Std.OrientedCmp.not_lt_of_lt before)
  · rw [List.mem_filter, List.mem_filter, Std.TreeMap.mem_toList_iff_getElem?_eq_some,
      Std.TreeMap.mem_toList_iff_getElem?_eq_some]
    refine and_congr_left fun here => ?_
    have found : first.entries[item.1]? = second.entries[item.1]? :=
      alike.entry_eq item.1 (reads item here)
    rw [found]

theorem below_eq (writes : region.writes path) : first.below path = second.below path := by
  refine alike.filter_eq fun item below => region.writes_reads _ ?_
  exact region.writes_within path item.1 (Below.within below) writes

theorem children_eq (writes : region.writes path) : first.children path = second.children path := by
  rw [children, children, alike.filter_eq]
  intro item child
  obtain ⟨name, same⟩ := Path.isChildOf_iff.mp child
  rw [same]
  exact region.writes_reads _ (region.writes_within path _ (Path.within_child path name) writes)

/-! Changes that are made to both. -/

/-- A path of the region names something else on both, or nothing. -/
theorem rebound (writes : region.writes path) {entry : Option Entry}
    (own : ∀ id, entry = some (.file id) → region.Owns first.contents.size id)
    {ones twos : Std.TreeMap Path Entry}
    (one : ∀ other, ones[other]? = if path = other then entry else first.binding? other)
    (two : ∀ other, twos[other]? = if path = other then entry else second.binding? other) :
    region.Alike { first with entries := ones } { second with entries := twos } where
  entry_eq other reads := (one other).trans (alike.entry_eq other reads ▸ (two other).symm)
  read_eq := alike.read_eq
  size_eq := alike.size_eq
  refusals_eq := alike.refusals_eq
  there other reads only := by
    have apart : path ≠ other := fun same => only (same ▸ writes)
    rcases alike.there other reads only with root | bound
    · exact Or.inl root
    · exact Or.inr ((one other).trans ((if_neg apart).trans bound))
  noFile other id only reads bound := by
    have apart : path ≠ other := fun same => only (same ▸ writes)
    exact alike.noFile other id only reads ((if_neg apart).symm.trans ((one other).symm.trans bound))
  own other id inside bound := by
    have named : (if path = other then entry else first.binding? other) = some (.file id) :=
      (one other).symm.trans bound
    split at named
    · exact own id named
    · exact alike.own other id inside named
  known := alike.known

theorem bind (writes : region.writes path) {entry : Entry}
    (own : ∀ id, entry = .file id → region.Owns first.contents.size id) :
    region.Alike (first.bind path entry) (second.bind path entry) :=
  alike.rebound writes (fun id same => own id (Option.some.inj same))
    (fun other => bind_binding? first path other entry) fun other => bind_binding? second path other entry

theorem unbind (writes : region.writes path) :
    region.Alike (first.unbind path) (second.unbind path) :=
  alike.rebound writes (fun _ none => absurd none.symm (Option.some_ne_none _))
    (fun other => unbind_binding? first path other) fun other => unbind_binding? second path other

theorem write (id : FileId) (bytes : Bytes) :
    region.Alike (first.write id bytes) (second.write id bytes) where
  entry_eq := alike.entry_eq
  read_eq other own := by
    rw [read_write, read_write, alike.read_eq other own, alike.size_eq]
  size_eq := by rw [write_size, write_size, alike.size_eq]
  refusals_eq := alike.refusals_eq
  there := alike.there
  noFile := alike.noFile
  own := by
    rw [write_size]
    exact alike.own
  known := by
    rw [write_size]
    exact alike.known

theorem grown : region.Alike first.grown second.grown where
  entry_eq := alike.entry_eq
  read_eq other own := by
    rw [read_grown_eq, read_grown_eq, alike.read_eq other own]
  size_eq := by rw [grown_size, grown_size, alike.size_eq]
  refusals_eq := alike.refusals_eq
  there := alike.there
  noFile := alike.noFile
  own path id writes bound := by
    rw [grown_size]
    exact (alike.own path id writes bound).mono (Nat.le_succ _)
  known other foreign := by
    rw [grown_size]
    exact Nat.lt_succ_of_lt (alike.known other foreign)

end Alike

theorem keeps_bind (writes : region.writes path) (entry : Entry) :
    region.Keeps first (first.bind path entry) where
  entry_eq other outside := by
    rw [bind_binding?, if_neg fun same : path = other => outside (same ▸ writes)]
  read_eq _ _ := rfl
  size_le := Nat.le_refl _

theorem keeps_unbind (writes : region.writes path) : region.Keeps first (first.unbind path) where
  entry_eq other outside := by
    rw [unbind_binding?, if_neg fun same : path = other => outside (same ▸ writes)]
  read_eq _ _ := rfl
  size_le := Nat.le_refl _

theorem keeps_write {id : FileId} (own : ¬region.others id) (bytes : Bytes) :
    region.Keeps first (first.write id bytes) where
  entry_eq _ _ := rfl
  read_eq _ foreign := read_write_ne bytes fun same => own (same ▸ foreign)
  size_le := Nat.le_of_eq (write_size first id bytes).symm

theorem keeps_grown (volume : Volume) : region.Keeps volume volume.grown where
  entry_eq _ _ := rfl
  read_eq id _ := read_grown_eq volume id
  size_le := by
    rw [grown_size]
    exact Nat.le_succ _

end Region

end FingerprintSet.Storage
