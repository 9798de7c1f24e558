import FingerprintSet.Proofs.Storage.Trees

/-!
# Renaming directories

A directory under another name: the bindings below it move and all others stay.  A renaming is
one step, so a stop leaves either name whole.
-/

namespace FingerprintSet.Storage

open Volume

variable {before : Volume}

theorem foldl_unbind_binding? (volume : Volume) (items : List (Path × Entry)) (path : Path) :
    (items.foldl (fun v item => v.unbind item.1) volume).binding? path =
      if path ∈ items.map Prod.fst then none else volume.binding? path := by
  induction items generalizing volume with
  | nil => simp
  | cons item items ih =>
      rw [List.foldl_cons, ih, unbind_binding?, List.map_cons]
      by_cases same : item.1 = path
      · simp [same]
      · simp only [if_neg same, List.mem_cons, Ne.symm same, false_or]

/-- Binding items under new names, each of which is another one. -/
theorem foldl_bind_binding? (volume : Volume) (name : Path → Path) (items : List (Path × Entry))
    (distinct : (items.map fun item => name item.1).Nodup) :
    (∀ item ∈ items, (items.foldl (fun v item => v.bind (name item.1) item.2) volume).binding?
        (name item.1) = some item.2) ∧
      ∀ path, (∀ item ∈ items, name item.1 ≠ path) →
        (items.foldl (fun v item => v.bind (name item.1) item.2) volume).binding? path =
          volume.binding? path := by
  induction items generalizing volume with
  | nil => simp
  | cons item items ih =>
      rw [List.map_cons, List.nodup_cons] at distinct
      obtain ⟨inner, outer⟩ := ih (volume.bind (name item.1) item.2) distinct.2
      rw [List.foldl_cons]
      constructor
      · intro other mem
        rcases List.mem_cons.mp mem with rfl | mem
        · rw [outer, bind_binding?, if_pos rfl]
          exact fun next nextMem same => distinct.1 (same ▸ List.mem_map_of_mem nextMem)
        · exact inner other mem
      · intro path apart
        rw [outer path fun other mem => apart other (List.mem_cons_of_mem _ mem), bind_binding?,
          if_neg (apart item List.mem_cons_self)]

/-- What is bound after a directory was given another name. -/
def movedBinding? (volume : Volume) (source target path : Path) : Option Entry :=
  if target.within path then volume.binding? (source ++ path.drop target.length)
  else if source.within path then none
  else volume.binding? path

/-- The volume on which a directory has another name. -/
def moved (volume : Volume) (source target : Path) (entry : Entry) : Volume :=
  (volume.below source).foldl
    (fun v item => v.bind (target ++ item.1.drop source.length) item.2)
    (((volume.below source).foldl (fun v item => v.unbind item.1) (volume.unbind source)).bind
      target entry)

theorem foldl_unbind_same (volume : Volume) (items : List (Path × Entry)) :
    (items.foldl (fun v item => v.unbind item.1) volume).contents = volume.contents ∧
      (items.foldl (fun v item => v.unbind item.1) volume).faults = volume.faults ∧
      (items.foldl (fun v item => v.unbind item.1) volume).clock = volume.clock := by
  induction items generalizing volume with
  | nil => exact ⟨rfl, rfl, rfl⟩
  | cons item items ih => exact ih (volume.unbind item.1)

theorem foldl_bind_same (volume : Volume) (name : Path → Path) (items : List (Path × Entry)) :
    (items.foldl (fun v item => v.bind (name item.1) item.2) volume).contents =
        volume.contents ∧
      (items.foldl (fun v item => v.bind (name item.1) item.2) volume).faults =
        volume.faults ∧
      (items.foldl (fun v item => v.bind (name item.1) item.2) volume).clock = volume.clock := by
  induction items generalizing volume with
  | nil => exact ⟨rfl, rfl, rfl⟩
  | cons item items ih => exact ih (volume.bind (name item.1) item.2)

theorem moved_same (volume : Volume) (source target : Path) (entry : Entry) :
    (moved volume source target entry).contents = volume.contents ∧
      (moved volume source target entry).faults = volume.faults ∧
      (moved volume source target entry).clock = volume.clock := by
  obtain ⟨bindContents, bindFaults, bindClock⟩ := foldl_bind_same
    (((volume.below source).foldl (fun v item => v.unbind item.1) (volume.unbind source)).bind
      target entry) (fun path => target ++ path.drop source.length) (volume.below source)
  obtain ⟨contents, faults, clock⟩ :=
    foldl_unbind_same (volume.unbind source) (volume.below source)
  exact ⟨bindContents.trans contents, bindFaults.trans faults, bindClock.trans clock⟩

/-- Unbinding a directory and all below it frees every path within it. -/
theorem unbound_binding? (volume : Volume) (source path : Path) :
    ((volume.below source).foldl (fun v item => v.unbind item.1)
      (volume.unbind source)).binding? path =
      if source.within path then none else volume.binding? path := by
  rw [foldl_unbind_binding?, unbind_binding?]
  by_cases within : source.within path = true
  · rw [if_pos within]
    split
    · rfl
    split
    · rfl
    rename_i absent apart
    cases found : volume.binding? path with
    | none => rfl
    | some there =>
        have below : Below source path := (within_iff_below.mp within).resolve_left (Ne.symm apart)
        have mem : (path, there) ∈ volume.below source := mem_below_iff.mpr ⟨found, below⟩
        exact absurd (List.mem_map_of_mem mem) absent
  · have notSource : source ≠ path := fun same => within (same ▸ Path.within_self source)
    have notBelow : path ∉ (volume.below source).map Prod.fst := by
      intro mem
      obtain ⟨item, itemMem, rfl⟩ := List.mem_map.mp mem
      exact within (Below.within (mem_below_iff.mp itemMem).2)
    rw [if_neg within, if_neg notBelow, if_neg notSource]

/-- Renaming a directory to a name below which nothing is moves all bindings below it and no
others. -/
theorem moved_binding? {volume : Volume} {source target : Path} {entry : Entry}
    (bound : volume.binding? source = some entry)
    (vacant : ∀ path, Below target path → volume.binding? path = none) (path : Path) :
    (moved volume source target entry).binding? path = movedBinding? volume source target path := by
  have drop (item : Path × Entry) (mem : item ∈ volume.below source) :
      ∃ rest, rest ≠ [] ∧ item.1 = source ++ rest ∧
        target ++ item.1.drop source.length = target ++ rest := by
    obtain ⟨name, rest, equal⟩ := below_iff.mp (mem_below_iff.mp mem).2
    exact ⟨name :: rest, by simp, equal, by simp [equal]⟩
  have distinct : ((volume.below source).map fun item =>
      target ++ item.1.drop source.length).Nodup := by
    refine List.pairwise_map.mpr (List.Pairwise.imp_of_mem ?_
      (Std.TreeMap.distinct_keys_toList.filter _))
    intro first second firstMem secondMem apart same
    obtain ⟨firstRest, -, firstEq, firstDrop⟩ := drop first firstMem
    obtain ⟨secondRest, -, secondEq, secondDrop⟩ := drop second secondMem
    rw [firstDrop, secondDrop, List.append_cancel_left_eq] at same
    exact apart (Std.LawfulEqCmp.compare_eq_iff_eq.mpr (by rw [firstEq, secondEq, same]))
  obtain ⟨inner, outer⟩ := foldl_bind_binding?
    (((volume.below source).foldl (fun v item => v.unbind item.1) (volume.unbind source)).bind
      target entry) (fun path => target ++ path.drop source.length) (volume.below source) distinct
  rw [movedBinding?]
  by_cases within : target.within path = true
  · rw [if_pos within]
    obtain ⟨rest, rfl⟩ := Path.within_iff.mp within
    rw [List.drop_left]
    cases found : volume.binding? (source ++ rest) with
    | some there =>
        cases rest with
        | nil =>
            rw [List.append_nil] at found ⊢
            rw [moved, outer, bind_binding?, if_pos rfl, ← found, bound]
            intro item mem same
            obtain ⟨more, nonempty, -, dropEq⟩ := drop item mem
            rw [dropEq] at same
            simp [nonempty] at same
        | cons name more =>
            have mem : (source ++ name :: more, there) ∈ volume.below source :=
              mem_below_iff.mpr ⟨found, below_iff.mpr ⟨name, more, rfl⟩⟩
            have named := inner _ mem
            rw [List.drop_left] at named
            exact named
    | none =>
        have notTarget : target ≠ target ++ rest := by
          intro same
          have nil : rest = [] := by simpa using same
          simp [nil, bound] at found
        have below : Below target (target ++ rest) :=
          (within_iff_below.mp (Path.within_append target rest)).resolve_left (Ne.symm notTarget)
        rw [moved, outer, bind_binding?, if_neg notTarget, unbound_binding?, vacant _ below, ite_self]
        intro item mem same
        obtain ⟨more, -, itemEq, dropEq⟩ := drop item mem
        rw [dropEq, List.append_cancel_left_eq] at same
        have there := (mem_below_iff.mp mem).1
        rw [itemEq, same, found] at there
        contradiction
  · have notTarget : target ≠ path := fun same => within (same ▸ Path.within_self target)
    rw [if_neg within, moved, outer, bind_binding?, if_neg notTarget, unbound_binding?]
    intro item mem same
    obtain ⟨rest, -, -, dropEq⟩ := drop item mem
    exact within (same ▸ dropEq ▸ Path.within_append target rest)

/-- Nothing lies below a free name. -/
theorem free_within (sound : before.Sound) {dir : Path} {name : String}
    (free : before.binding? (dir.child name) = none) {path : Path}
    (within : Within (dir.child name) path) : before.binding? path = none := by
  obtain ⟨rest, rfl⟩ := Path.within_iff.mp within
  cases found : before.binding? (dir.child name ++ rest) with
  | none => rfl
  | some entry =>
      rcases List.eq_nil_or_concat rest with rfl | ⟨more, last, rfl⟩
      · rw [List.append_nil, free] at found
        contradiction
      · have above : dir.child name ++ (more ++ [last]) = (dir.child name ++ more).child last := by
          simp [Path.child]
        rw [List.concat_eq_append, above] at found
        have bound := Option.ne_none_iff_exists'.mpr ⟨entry, found⟩
        have isDir := isDir_of_append sound _ more (sound.parented _ last bound)
        simp [IsDir, free] at isDir

/-- A volume on which a directory has got another name, with all that it holds. -/
structure Moved (before : Volume) (source target : Path) (after : Volume) : Prop where
  contents : after.contents = before.contents
  entries : ∀ path, after.binding? path = movedBinding? before source target path

namespace Moved

variable {after : Volume} {source target : Path}

theorem inside (moved : Moved before source target after) (rest : Path) :
    after.binding? (target ++ rest) = before.binding? (source ++ rest) := by
  rw [moved.entries, movedBinding?, if_pos (Path.within_append _ rest), List.drop_left]

theorem elsewhere (moved : Moved before source target after) {path : Path}
    (notTarget : ¬target.within path = true) (found : after.binding? path ≠ none) :
    ¬source.within path = true ∧ after.binding? path = before.binding? path := by
  rw [moved.entries, movedBinding?, if_neg notTarget] at found ⊢
  split at found
  · contradiction
  · rename_i notSource
    exact ⟨notSource, if_neg notSource⟩

theorem kept (moved : Moved before source target after) {path : Path}
    (notTarget : ¬target.within path = true) (notSource : ¬source.within path = true)
    (wasDir : before.IsDir path) : after.IsDir path := by
  rcases wasDir with rfl | found
  · exact Or.inl rfl
  · refine Or.inr ?_
    rw [moved.entries, movedBinding?, if_neg notTarget, if_neg notSource, found]

/-- What is bound under the new name lies in a directory that moved with it. -/
theorem parented_inside (moved : Moved before source target after) (sound : before.Sound)
    (notRoot : source ≠ []) {more : Path} {part : String}
    (found : after.binding? ((target ++ more).child part) ≠ none) :
    after.IsDir (target ++ more) := by
  have childEq : (target ++ more).child part = target ++ (more ++ [part]) := List.append_assoc ..
  rw [childEq, moved.inside] at found
  have wasDir := sound.parented (source ++ more) part (by simpa [Path.child] using found)
  refine Or.inr ?_
  rw [moved.inside]
  exact wasDir.resolve_left (by simp [notRoot])

theorem parented {dir : Path} {name : String} (moved : Moved before source (dir.child name) after)
    (sound : before.Sound) (notRoot : source ≠ []) (isDir : before.IsDir dir)
    (outside : source.within (dir.child name) = false) {parent : Path} {part : String}
    (found : after.binding? (parent.child part) ≠ none) : after.IsDir parent := by
  by_cases within : (dir.child name).within (parent.child part) = true
  · obtain ⟨rest, equal⟩ := Path.within_iff.mp within
    rcases List.eq_nil_or_concat rest with rfl | ⟨more, last, rfl⟩
    · rw [List.append_nil] at equal
      obtain ⟨rfl, -⟩ := List.append_inj' equal rfl
      refine moved.kept ?_ ?_ isDir
      · intro longer
        have length := (List.isPrefixOf_iff_prefix.mp longer).length_le
        rw [Path.child, List.length_append] at length
        exact absurd length (Nat.not_succ_le_self _)
      · intro below
        rw [Path.within_trans below (Path.within_child parent name)] at outside
        contradiction
    · rw [List.concat_eq_append, ← List.append_assoc] at equal
      obtain ⟨rfl, -⟩ := List.append_inj' equal rfl
      exact moved.parented_inside sound notRoot found
  · obtain ⟨notSource, same⟩ := moved.elsewhere within found
    rw [same] at found
    refine moved.kept ?_ ?_ (sound.parented parent part found)
    · exact fun inner => within (Path.within_trans inner (Path.within_child parent part))
    · exact fun inner => notSource (Path.within_trans inner (Path.within_child parent part))

/-- Each file that is found was there before, under the old name or where it is now. -/
theorem origin (moved : Moved before source target after) {path : Path} {id : FileId}
    (found : after.binding? path = some (.file id)) :
    ∃ old, before.binding? old = some (.file id) ∧
      ((∃ rest, old = source ++ rest ∧ path = target ++ rest) ∨
        (¬source.within old = true ∧ path = old)) := by
  by_cases within : target.within path = true
  · obtain ⟨rest, rfl⟩ := Path.within_iff.mp within
    exact ⟨source ++ rest, moved.inside rest ▸ found, Or.inl ⟨rest, rfl, rfl⟩⟩
  · obtain ⟨notSource, same⟩ := moved.elsewhere within (by simp [found])
    exact ⟨path, same ▸ found, Or.inr ⟨notSource, rfl⟩⟩

theorem apart (moved : Moved before source target after) (sound : before.Sound)
    {first second : Path} {id : FileId} (firstFound : after.binding? first = some (.file id))
    (secondFound : after.binding? second = some (.file id)) : first = second := by
  obtain ⟨old, oldFound, firstOld⟩ := moved.origin firstFound
  obtain ⟨other, otherFound, secondOld⟩ := moved.origin secondFound
  obtain rfl := sound.apart old other id oldFound otherFound
  rcases firstOld with ⟨rest, rfl, rfl⟩ | ⟨notSource, rfl⟩
  · rcases secondOld with ⟨more, same, rfl⟩ | ⟨notSource, -⟩
    · rw [List.append_cancel_left_eq] at same
      rw [same]
    · exact absurd (Path.within_append source rest) notSource
  · rcases secondOld with ⟨more, rfl, -⟩ | ⟨-, rfl⟩
    · exact absurd (Path.within_append source more) notSource
    · rfl

/-- A directory under another name keeps the bindings a tree. -/
theorem sound {dir : Path} {name : String} (moved : Moved before source (dir.child name) after)
    (sound : before.Sound) (notRoot : source ≠ []) (isDir : before.IsDir dir)
    (fits : FitsDirectory name) (outside : source.within (dir.child name) = false) :
    after.Sound where
  rootless := by
    rw [moved.entries, movedBinding?, if_neg (by simp [Path.within, Path.child]), sound.rootless,
      ite_self]
  parented _ _ found := moved.parented sound notRoot isDir outside found
  named path found part mem := by
    by_cases within : (dir.child name).within path = true
    · obtain ⟨rest, rfl⟩ := Path.within_iff.mp within
      rw [moved.inside] at found
      rcases List.mem_append.mp mem with mem | mem
      · rcases List.mem_append.mp mem with mem | mem
        · exact fits_of_isDir sound isDir part mem
        · exact List.mem_singleton.mp mem ▸ fits
      · exact sound.named _ found part (List.mem_append_right _ mem)
    · rw [(moved.elsewhere within found).2] at found
      exact sound.named path found part mem
  stored path id found := by
    obtain ⟨old, oldFound, -⟩ := moved.origin found
    rw [moved.contents]
    exact sound.stored old id oldFound
  apart _ _ _ firstFound secondFound := moved.apart sound firstFound secondFound

end Moved

/-- Where a directory can be put in one step: at a free name or over an empty directory. -/
structure Vacant (volume : Volume) (path : Path) : Prop where
  noFile : ∀ id, volume.binding? path ≠ some (.file id)
  below : ∀ other, Below path other → volume.binding? other = none

theorem Vacant.of_free {volume : Volume} (sound : volume.Sound) {dir : Path} {name : String}
    (free : volume.binding? (dir.child name) = none) : Vacant volume (dir.child name) where
  noFile id := by
    rw [free]
    exact (Option.some_ne_none _).symm
  below _ below := free_within sound free below.within

theorem Vacant.replaceable {volume : Volume} {path : Path} (vacant : Vacant volume path) :
    mayReplace volume .directory path (volume.binding? path) = .ok () := by
  have none : volume.below path = [] := by
    refine List.eq_nil_iff_forall_not_mem.mpr fun item mem => ?_
    obtain ⟨found, below⟩ := mem_below_iff.mp mem
    simp [vacant.below item.1 below] at found
  cases bound : volume.binding? path with
  | none => rfl
  | some entry =>
      cases entry with
      | file id => exact absurd bound (vacant.noFile id)
      | directory =>
          show (if (volume.below path).isEmpty then _ else _) = _
          rw [none]
          rfl

/-- Giving a directory another name, which may be that of an empty directory, moves it with all it
holds in one step. -/
theorem rename_happens (sound : before.Sound) {source dir : Path} {name : String}
    (bound : before.binding? source = some .directory) (isDir : before.IsDir dir)
    (fits : FitsDirectory name) (vacant : Vacant before (dir.child name))
    (outside : source.within (dir.child name) = false) :
    Happens (rename source (dir.child name)) before
      (fun path => Within source path ∨ Within (dir.child name) path) NoFile fun _ after =>
        (∀ rest, after.binding? (dir.child name ++ rest) = before.binding? (source ++ rest)) ∧
          ∀ path, Within source path → after.binding? path = none := by
  have different : source ≠ dir.child name := by
    rintro rfl
    simp at outside
  have notRoot : source ≠ [] := by
    rintro rfl
    simp [sound.rootless] at bound
  obtain ⟨contents, faults, clock⟩ := moved_same before.ticked source (dir.child name) .directory
  have isMoved : Moved before.ticked source (dir.child name)
      (moved before.ticked source (dir.child name) .directory) :=
    { contents
      entries := moved_binding? bound vacant.below }
  have notStrict : source.strictlyWithin (dir.child name) = false := by
    rw [Path.within] at outside
    simp [Path.strictlyWithin, outside]
  refine Happens.attempt (show _ = Except.ok ((), moved before.ticked source (dir.child name)
    .directory) from ?_) ?_ ⟨?_, ?_⟩
  · have vacantTicked : Vacant before.ticked (dir.child name) := ⟨vacant.noFile, vacant.below⟩
    have replaces := vacantTicked.replaceable
    rw [ticked_binding?] at replaces
    rw [find_ticked, find_ticked, find_bound sound bound, find_child sound isDir fits]
    show (if source = dir.child name then _ else
      if source.strictlyWithin (dir.child name) = true then _ else do
        mayReplace before.ticked .directory (dir.child name) (before.binding? (dir.child name))
        _) = _
    rw [if_neg different, notStrict, replaces]
    rfl
  · exact
      { sound := fun ticked => isMoved.sound ticked notRoot isDir fits outside
        faults_eq := faults
        clock_le := Nat.le_of_eq clock.symm
        size_le := Nat.le_of_eq (congrArg Array.size contents).symm
        entry_eq := fun path apart => by
          have notSource : ¬source.within path = true := fun within => apart (Or.inl within)
          have notTarget : ¬(dir.child name).within path = true :=
            fun within => apart (Or.inr within)
          rw [isMoved.entries, movedBinding?, if_neg notTarget, if_neg notSource]
        read_eq := fun id _ _ => by rw [Volume.read, contents, Volume.read] }
  · exact isMoved.inside
  · intro path within
    rw [isMoved.entries, movedBinding?]
    split
    · rename_i inTarget
      -- The source would lie below the new name or the other way round.
      rcases List.prefix_or_prefix_of_prefix (List.isPrefixOf_iff_prefix.mp within)
        (List.isPrefixOf_iff_prefix.mp inTarget) with inside | inside
      · rw [Path.within, List.isPrefixOf_iff_prefix.mpr inside] at outside
        contradiction
      · have below := (within_iff_below.mp (List.isPrefixOf_iff_prefix.mpr inside)).resolve_left
          different
        rw [vacant.below source below] at bound
        contradiction
    · exact if_pos within

/-- What no directory takes cannot be a new name. -/
theorem rename_unfit (sound : before.Sound) {source dir : Path} {name : String} {entry : Entry}
    (bound : before.binding? source = some entry) (isDir : before.IsDir dir)
    (unfit : ¬FitsDirectory name) :
    Meets (rename source (dir.child name)) before (fun _ _ => False)
      fun _ after => after = before.ticked := by
  obtain ⟨failure, notFound⟩ := find_unfit (ticked_sound sound) isDir unfit
  refine @Meets.attempt_error _ _ _ _ failure _ ?_ rfl fun _ _ => rfl
  rw [find_ticked, find_bound sound bound, notFound]
  rfl

end FingerprintSet.Storage
