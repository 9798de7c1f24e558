import FingerprintSet.Proofs.Storage.Steps

/-!
# Removing trees

Removing a directory with all it holds.  A removal goes from the deepest entries up, so a stop
in its middle leaves a tree.
-/

namespace FingerprintSet.Storage

open Volume

variable {before : Volume}

/-- Below the directory and not the directory itself. -/
def Below (dir : Path) (path : Path) : Prop :=
  dir.strictlyWithin path = true

theorem below_iff {dir path : Path} :
    Below dir path ↔ ∃ name rest, path = dir ++ name :: rest := by
  rw [Below, Path.strictlyWithin, Bool.and_eq_true, decide_eq_true_iff]
  constructor
  · rintro ⟨within, longer⟩
    obtain ⟨rest, rfl⟩ := Path.within_iff.mp within
    cases rest with
    | nil => simp at longer
    | cons name rest => exact ⟨name, rest, rfl⟩
  · rintro ⟨name, rest, rfl⟩
    exact ⟨Path.within_append dir _, by simp⟩

theorem within_iff_below {dir path : Path} : Within dir path ↔ path = dir ∨ Below dir path := by
  rw [Within, Path.within_iff, below_iff]
  constructor
  · rintro ⟨rest, rfl⟩
    cases rest with
    | nil => exact Or.inl (List.append_nil dir)
    | cons name rest => exact Or.inr ⟨name, rest, rfl⟩
  · rintro (rfl | ⟨name, rest, rfl⟩)
    · exact ⟨[], (List.append_nil _).symm⟩
    · exact ⟨name :: rest, rfl⟩

theorem Below.within {dir path : Path} (below : Below dir path) : Within dir path :=
  within_iff_below.mpr (Or.inr below)

theorem not_below_self (dir : Path) : ¬Below dir dir := by
  simp [Below, Path.strictlyWithin]

/-! ## Removing -/

/-- A directory comes before all that lies below it. -/
theorem compare_below {dir path : Path} (below : Below dir path) : compare dir path = .lt := by
  obtain ⟨name, rest, rfl⟩ := below_iff.mp below
  show List.compareLex compare dir (dir ++ name :: rest) = .lt
  clear below
  induction dir with
  | nil => exact List.compareLex_nil_cons
  | cons first dir ih =>
      have same : compare first first = .eq := Std.ReflCmp.compare_self
      rw [List.cons_append, List.compareLex_cons_cons, same]
      exact ih

/-- From the deepest up, nothing lies below what comes earlier. -/
theorem below_reverse_pairwise (volume : Volume) (path : Path) :
    (volume.below path).reverse.Pairwise fun first second => ¬Below first.1 second.1 := by
  rw [List.pairwise_reverse]
  refine (Std.TreeMap.ordered_keys_toList.filter _).imp ?_
  intro first second ordered below
  have reversed : compare first.1 second.1 = (compare second.1 first.1).swap :=
    Std.OrientedCmp.eq_swap
  rw [ordered, compare_below below] at reversed
  contradiction

theorem removeEntry_runs (sound : before.Sound) {item : Path × Entry}
    (bound : before.binding? item.1 = some item.2) (empty : ∀ path, Below item.1 path →
      before.binding? path = none) :
    Runs (removeEntry item) before (At item.1) NoFile fun _ after =>
      after.binding? item.1 = none := by
  rcases item with ⟨path, entry⟩
  cases entry with
  | directory =>
      refine (removeDirectory_happens sound bound ?_).runs
      refine List.eq_nil_iff_forall_not_mem.mpr ?_
      intro item mem
      obtain ⟨found, below⟩ := mem_below_iff.mp mem
      simp [empty item.1 below] at found
  | file id => exact removeFile_runs sound bound

/-- Removing the entries below a directory, the deepest first, leaves none. -/
theorem removeEntries_runs {dir : Path} (items : List (Path × Entry)) (sound : before.Sound)
    (ordered : items.Pairwise fun first second => ¬Below first.1 second.1)
    (distinct : (items.map Prod.fst).Nodup)
    (exactly : ∀ item, item ∈ items ↔ before.binding? item.1 = some item.2 ∧ Below dir item.1) :
    Runs (items.forM removeEntry) before (Below dir) NoFile fun _ after =>
      ∀ path, Below dir path → after.binding? path = none := by
  induction items generalizing before with
  | nil =>
      refine Runs.pure fun path below => ?_
      cases found : before.binding? path with
      | none => rfl
      | some entry => exact absurd ((exactly (path, entry)).mpr ⟨found, below⟩) List.not_mem_nil
  | cons item items ih =>
      obtain ⟨bound, below⟩ := (exactly item).mp List.mem_cons_self
      rw [List.pairwise_cons] at ordered
      rw [List.map_cons, List.nodup_cons] at distinct
      have empty (path : Path) (deeper : Below item.1 path) : before.binding? path = none := by
        cases found : before.binding? path with
        | none => rfl
        | some entry =>
            have inDir : Below dir path := by
              obtain ⟨name, rest, itemEq⟩ := below_iff.mp below
              obtain ⟨other, more, pathEq⟩ := below_iff.mp deeper
              exact below_iff.mpr ⟨name, rest ++ other :: more, by simp [pathEq, itemEq]⟩
            rcases List.mem_cons.mp ((exactly (path, entry)).mpr ⟨found, inDir⟩) with same | mem
            · exact absurd (same ▸ deeper) (not_below_self _)
            · exact absurd deeper (ordered.1 _ mem)
      have first := ((removeEntry_runs sound bound empty).mono fun _ after changes removed =>
        And.intro removed changes.entry_eq).widen (fun path same => (same ▸ below : Below dir path))
          fun _ _ none => none
      refine Runs.bind first fun _ after changes ⟨removed, others⟩ => ?_
      refine ih (changes.sound sound) ordered.2 distinct.2 fun other => ?_
      by_cases same : other.1 = item.1
      · have absent : other ∉ items := fun mem =>
          distinct.1 (same ▸ List.mem_map_of_mem mem)
        simp [absent, same, removed]
      · have kept := exactly other
        rw [List.mem_cons, or_iff_right fun equal => same (congrArg Prod.fst equal)] at kept
        rw [others other.1 same, kept]

/-- Removing a tree removes the directory and all below it.  The directory goes last, so a refusal
leaves it there. -/
theorem removeTree_meets (sound : before.Sound) {dir : Path}
    (bound : before.binding? dir = some .directory) :
    Meets (removeTree dir) before
      (fun _ after => Changes (Within dir) NoFile before after ∧
        ∀ path, Within dir path → after.binding? path = none)
      fun _ after => Changes (Below dir) NoFile before after ∧ ¬before.Quiet := by
  have list := (listDirectory_runs sound (Or.inr bound)).mono fun _ _ changes _ => changes
  apply Meets.bind list.ofNothing
  rintro _ listed ⟨sinceList, same⟩
  have listedSound := same.sound sound
  have look : Runs (inspect fun volume => volume.below dir) listed (Below dir) NoFile
      fun inner after => inner = listed.below dir ∧ after = listed := Runs.inspect ⟨rfl, rfl⟩
  apply Meets.bind (look.since sinceList)
  rintro _ _ ⟨-, innerEq, lookedEq⟩
  rw [innerEq, lookedEq]
  have distinct : ((listed.below dir).reverse.map Prod.fst).Nodup := by
    rw [List.map_reverse, (List.reverse_perm _).nodup_iff]
    exact (Std.TreeMap.nodup_keys.sublist
      (Std.TreeMap.map_fst_toList_eq_keys ▸ List.filter_sublist.map Prod.fst))
  have inner := (removeEntries_runs (listed.below dir).reverse listedSound
    (below_reverse_pairwise listed dir) distinct fun item => by
      rw [List.mem_reverse, mem_below_iff]; rfl).mono fun _ after changes removed =>
        And.intro removed (changes.entry_eq dir (not_below_self dir))
  apply Meets.bind (inner.since sinceList)
  rintro _ emptied ⟨changes, removed, kept⟩
  have boundStill : emptied.binding? dir = some .directory := by
    rw [kept, same.entry_eq dir id, bound]
  have empty : emptied.below dir = [] := by
    refine List.eq_nil_iff_forall_not_mem.mpr fun item mem => ?_
    obtain ⟨found, below⟩ := mem_below_iff.mp mem
    simp [removed item.1 below] at found
  apply Meets.mono (removeDirectory_happens (changes.sound sound) boundStill empty)
  · rintro _ after ⟨more, gone⟩
    have within := changes.mono (fun _ => Below.within) fun _ _ none => none
    refine ⟨within.trans (more.mono (fun path same => ?_) fun _ _ none => none), ?_⟩
    · exact within_iff_below.mpr (Or.inl same)
    · intro path inside
      by_cases same : path = dir
      · rw [same, gone]
      · rw [more.entry_eq path same, removed path ((within_iff_below.mp inside).resolve_left same)]
  · rintro _ after ⟨more, refused⟩
    exact ⟨changes.trans more.ofNothing, fun quiet => refused (changes.quiet quiet)⟩

/-- Removing a tree removes the directory and all below it. -/
theorem removeTree_runs (sound : before.Sound) {dir : Path}
    (bound : before.binding? dir = some .directory) :
    Runs (removeTree dir) before (Within dir) NoFile fun _ after =>
      ∀ path, Within dir path → after.binding? path = none := by
  apply Meets.mono (removeTree_meets sound bound)
  · exact fun _ _ holds => holds
  · rintro _ _ ⟨changes, refused⟩
    exact ⟨changes.mono (fun _ => Below.within) fun _ _ none => none, refused⟩

/-- What is no directory is not removed as a tree. -/
theorem removeTree_fails {dir : Path} (nonempty : dir ≠ [])
    (other : before.binding? dir ≠ some .directory) :
    Meets (removeTree dir) before (fun _ _ => False) fun _ after => after = before.ticked := by
  have lists : Meets (listDirectory dir) before (fun _ _ => False)
      fun _ after => after = before.ticked := by
    cases found : before.ticked.find dir with
    | error failure =>
        refine Meets.attempt_error (show _ = Except.error failure from ?_) rfl fun _ _ => rfl
        rw [found]
        rfl
    | ok entry =>
        rcases entry with _ | _ | id
        · refine Meets.attempt_error (show _ = Except.error (.refused .notFound) from ?_) rfl
            fun _ _ => rfl
          rw [found]
          rfl
        · exact absurd (binding?_of_find nonempty found) other
        · refine Meets.attempt_error (show _ = Except.error (.refused .notDirectory) from ?_) rfl
            fun _ _ => rfl
          rw [found]
          rfl
  exact Meets.bind lists fun _ _ impossible => impossible.elim

/-- However the removal of a tree ends, nothing outside of it is touched. -/
theorem removeTree_changes (sound : before.Sound) {dir : Path} (nonempty : dir ≠ []) :
    Meets (removeTree dir) before (fun _ after => Changes (Within dir) NoFile before after)
      fun _ after => Changes (Within dir) NoFile before after := by
  by_cases bound : before.binding? dir = some .directory
  · apply Meets.mono (removeTree_runs sound bound)
    · exact fun _ _ holds => holds.1
    · exact fun _ _ holds => holds.1
  · apply Meets.mono (removeTree_fails nonempty bound)
    · exact fun _ _ impossible => impossible.elim
    · exact fun _ _ same => same ▸ (changes_ticked before).ofNothing

end FingerprintSet.Storage
