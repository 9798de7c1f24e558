import FingerprintSet.Proofs.SortedFile.Layout
import FingerprintSet.SortedFile.Reader

/-!
# What reading a fingerprint file gives

A reader stands before the entries it has not given yet: the bytes it has read ahead and the
bytes it has not read spell exactly these.  Asking it gives the first of them and leaves it
before the others, and after the last one the checksum is right.  All of this but the last holds
of a file whose checksum is wrong as well, so it is said first of what a reader spells.
-/

namespace FingerprintSet

open Storage Volume

/-- Asking for the next value gives the first of `values` and leaves a source of the others,
or the end when there are none.  Only a refusal makes it fail. -/
def Gives {ρ : Type} (work : StateM Volume (ρ × Pull)) (before : Volume)
    (values : List Fingerprint) (goesOn : ρ → Volume → List Fingerprint → Prop)
    (stops : ρ → Volume → Prop := fun _ _ => True) : Prop :=
  ∃ source pull after, work before = ((source, pull), after) ∧
    Changes Nowhere NoFile before after ∧
      match pull with
      | .value fp => ∃ rest, values = fp :: rest ∧ goesOn source after rest
      | .failed _ => ¬before.Quiet
      | .ended => values = [] ∧ stops source after

namespace SortedFile.Reader

variable {before : Volume}

/-- The block of a reader and the rest of its file spell the given entries.  Nothing is said of
the checksum. -/
structure Spells (volume : Volume) (reader : Reader) (id : FileId) (fps : List Fingerprint) :
    Prop where
  handle : reader.handle = .file id
  known : id < volume.contents.size
  bytes : reader.block.toList.drop reader.used ++ (volume.read id).toList.drop reader.position =
    Word.allBytes fps
  remaining : reader.remaining = fps.length
  unfinished : reader.finished = false

/-- What reading ahead leaves alone. -/
def label (reader : Reader) : Path × Header × UInt64 :=
  (reader.path, reader.header, reader.sum)

/-- A reader on a file stands before the given entries. -/
structure Stands (volume : Volume) (reader : Reader) (id : FileId) (fps : List Fingerprint) :
    Prop where
  handle : reader.handle = .file id
  known : id < volume.contents.size
  bytes : reader.block.toList.drop reader.used ++ (volume.read id).toList.drop reader.position =
    Word.allBytes fps
  remaining : reader.remaining = fps.length
  sum : fps.foldl Fnv.absorbFingerprint reader.sum = reader.header.checksum
  unfinished : reader.finished = false

theorem Stands.spells {volume : Volume} {reader : Reader} {id : FileId} {fps : List Fingerprint}
    (stands : reader.Stands volume id fps) : reader.Spells volume id fps :=
  { stands with }

/-- A reader that spells entries with the right checksum stands before them. -/
theorem Spells.stands {volume : Volume} {reader : Reader} {id : FileId} {fps : List Fingerprint}
    (spells : reader.Spells volume id fps)
    (sum : fps.foldl Fnv.absorbFingerprint reader.sum = reader.header.checksum) :
    reader.Stands volume id fps :=
  { spells with sum }

/-- A reader on one of the given files stands before the given entries. -/
def Delivers (volume : Volume) (used : FileId → Prop) (reader : Reader)
    (fps : List Fingerprint) : Prop :=
  ∃ id, used id ∧ reader.Stands volume id fps

theorem Stands.of_changes {reader : Reader} {id : FileId} {fps : List Fingerprint}
    {after : Volume} {paths : Path → Prop} {files : FileId → Prop}
    (stands : reader.Stands before id fps) (changes : Changes paths files before after)
    (untouched : ¬files id) : reader.Stands after id fps :=
  { stands with
    known := Nat.lt_of_lt_of_le stands.known changes.size_le
    bytes := by rw [changes.read_eq id stands.known untouched, stands.bytes] }

/-- What a reader delivers does not change while its file does not. -/
theorem Delivers.of_changes {used : FileId → Prop} {reader : Reader} {fps : List Fingerprint}
    {after : Volume} {paths : Path → Prop} {files : FileId → Prop}
    (delivers : reader.Delivers before used fps) (changes : Changes paths files before after)
    (untouched : ∀ id, id < before.contents.size → used id → ¬files id) :
    reader.Delivers after used fps := by
  obtain ⟨id, isUsed, stands⟩ := delivers
  exact ⟨id, isUsed, stands.of_changes changes (untouched id stands.known isUsed)⟩

theorem Delivers.mono {used more : FileId → Prop} {reader : Reader} {fps : List Fingerprint}
    (delivers : reader.Delivers before used fps) (sub : ∀ id, used id → more id) :
    reader.Delivers before more fps := by
  obtain ⟨id, isUsed, stands⟩ := delivers
  exact ⟨id, sub id isUsed, stands⟩

theorem Delivers.known {used : FileId → Prop} {reader : Reader} {fps : List Fingerprint}
    (delivers : reader.Delivers before used fps) : reader.Delivers before before.Known fps := by
  obtain ⟨id, -, stands⟩ := delivers
  exact ⟨id, stands.known, stands⟩

theorem Delivers.remaining {used : FileId → Prop} {reader : Reader} {fps : List Fingerprint}
    (delivers : reader.Delivers before used fps) : reader.remaining = fps.length := by
  obtain ⟨_, _, stands⟩ := delivers
  exact stands.remaining

/-- What a reader delivers is determined. -/
theorem Delivers.unique {used more : FileId → Prop} {reader : Reader}
    {first second : List Fingerprint} (delivers : reader.Delivers before used first)
    (also : reader.Delivers before more second) : first = second := by
  obtain ⟨id, _, stands⟩ := delivers
  obtain ⟨other, _, standsToo⟩ := also
  obtain rfl : id = other := by simpa [stands.handle] using standsToo.handle
  exact Word.allBytes_inj (stands.bytes.symm.trans standsToo.bytes)

/-! ## Opening -/

theorem openAt_runs (sound : before.Sound) {path : Path} {kind : Kind} {fps : List Fingerprint}
    {id : FileId} (holds : Holds before path kind fps id) (few : fps.length < countLimit) :
    Runs (openAt path kind) before Nowhere NoFile fun reader after =>
      reader.Stands after id fps ∧ reader.path = path ∧ reader.header = headerOf fps := by
  have known := sound.stored _ _ holds.bound
  apply Runs.bind (Activity.runs (openFile_runs sound holds.bound))
  rintro _ opened changes rfl
  apply Runs.bind (Runs.adapt (readAt_runs id 0 headerLength))
  rintro _ afterRead more rfl
  have same : opened.read id = fileBytes kind fps := by
    rw [changes.read_eq id known fun none => none, holds.bytes]
  have header : ((opened.read id).extract 0 (0 + headerLength)).toList =
      (headerOf fps).encode kind := by
    rw [same, Array.toList_extract, List.extract_eq_take_drop, Nat.zero_add, Nat.sub_zero,
      List.drop_zero, take_fileBytes]
  have knownRead := Nat.lt_of_lt_of_le known (changes.trans more).size_le
  rw [header, decode_encode]
  have decoded : Runs (Task.ofExcept ((Except.ok (headerOf fps)).mapError (Error.corrupt path)))
      afterRead Nowhere NoFile fun header after => header = headerOf fps ∧ after = afterRead :=
    Runs.pure ⟨rfl, rfl⟩
  apply Runs.bind decoded
  rintro _ _ _ ⟨rfl, afterEq⟩
  rw [afterEq]
  apply Runs.bind (Activity.runs (fileLength_runs id))
  rintro _ measured last rfl
  have sameRead : afterRead.read id = fileBytes kind fps := by
    rw [more.read_eq id (Nat.lt_of_lt_of_le known changes.size_le) fun none => none, same]
  have sameMeasured : measured.read id = fileBytes kind fps := by
    rw [last.read_eq id knownRead fun none => none, sameRead]
  have length : (afterRead.read id).size = (headerOf fps).fileLength := by
    rw [sameRead, size_fileBytes, Header.fileLength, count_headerOf few]
  rw [if_pos length]
  apply Runs.pure
  refine ⟨?_, rfl, rfl⟩
  exact
    { handle := rfl
      known := Nat.lt_of_lt_of_le knownRead last.size_le
      bytes := by simpa [sameMeasured] using drop_fileBytes kind fps
      remaining := count_headerOf few
      sum := rfl
      unfinished := rfl }

/-! ## Asking -/

/-- Reading ahead moves bytes from the file into the block. -/
theorem refill_runs {reader : Reader} {id : FileId} {fps : List Fingerprint}
    (spells : reader.Spells before id fps) :
    Runs reader.refill before Nowhere NoFile fun filled after =>
      filled.Spells after id fps ∧ filled.label = reader.label ∧
        (fps ≠ [] → entryLength ≤ filled.unused) := by
  rw [refill, spells.handle]
  apply Runs.bind (readAt_runs id reader.position readAheadLength)
  rintro more after changes moreEq
  have same := changes.read_eq id spells.known fun none => none
  generalize restEq : (before.read id).toList.drop reader.position = rest
  have spelled := spells.bytes
  rw [restEq] at spelled
  have ahead : more.toList = rest.take readAheadLength := by
    rw [moreEq, Array.toList_extract, List.extract_eq_take_drop, restEq, Nat.add_sub_cancel_left]
  have kept : (reader.block.extract reader.used reader.block.size).toList =
      reader.block.toList.drop reader.used := by
    rw [Array.toList_extract, List.extract_eq_take_drop, ← Array.length_toList,
      ← List.length_drop, List.take_length]
  have behind : (after.read id).toList.drop (reader.position + more.size) =
      rest.drop readAheadLength := by
    rw [same, ← List.drop_drop, restEq, ← Array.length_toList, ahead, List.length_take]
    rcases Nat.le_total readAheadLength rest.length with within | beyond
    · rw [Nat.min_eq_left within]
    · rw [Nat.min_eq_right beyond, List.drop_length, List.drop_eq_nil_of_le beyond]
  have filled : (reader.block.extract reader.used reader.block.size ++ more).toList =
      reader.block.toList.drop reader.used ++ rest.take readAheadLength := by
    rw [Array.toList_append, kept, ahead]
  apply Runs.pure
  refine ⟨?_, rfl, ?_⟩
  · exact
      { handle := rfl
        known := Nat.lt_of_lt_of_le spells.known changes.size_le
        bytes := by
          rw [List.drop_zero, filled, behind, List.append_assoc, List.take_append_drop, spelled]
        remaining := spells.remaining
        unfinished := spells.unfinished }
  · intro nonempty
    have positive := List.length_pos_iff.mpr nonempty
    have length := congrArg List.length spelled
    rw [List.length_append, Word.length_allBytes] at length
    rw [unused, Nat.sub_zero, ← Array.length_toList, filled, List.length_append, List.length_take]
    simp only [entryLength, readAheadLength]
    omega

theorem fill_runs {reader : Reader} {id : FileId} {fps : List Fingerprint}
    (spells : reader.Spells before id fps) (more : fps ≠ []) :
    Runs reader.fill before Nowhere NoFile fun filled after =>
      filled.Spells after id fps ∧ filled.label = reader.label ∧ entryLength ≤ filled.unused := by
  rw [fill]
  split
  · rename_i enough
    exact Runs.pure ⟨spells, rfl, enough⟩
  · apply Runs.bind (refill_runs spells)
    rintro filled after _ ⟨spellsStill, same, enough⟩
    rw [if_pos (enough more)]
    exact Runs.pure ⟨spellsStill, same, enough more⟩

/-- The first entry a filled reader gives is the first one it spells. -/
theorem take_spells {reader : Reader} {id : FileId} {fp : Fingerprint} {fps : List Fingerprint}
    (spells : reader.Spells before id (fp :: fps)) (enough : entryLength ≤ reader.unused) :
    reader.take.2 = fp ∧ reader.take.1.Spells before id fps := by
  have long : 8 ≤ (reader.block.toList.drop reader.used).length := by
    rw [List.length_drop, Array.length_toList]
    exact enough
  have spelled := spells.bytes
  rw [Word.allBytes_cons] at spelled
  have first : (reader.block.toList.drop reader.used).take 8 = Word.bytes fp := by
    have both := congrArg (List.take 8) spelled
    rwa [List.take_append_of_le_length long, List.take_left' (Word.length_bytes fp)] at both
  have others : reader.block.toList.drop (reader.used + 8) ++
      (before.read id).toList.drop reader.position = Word.allBytes fps := by
    have both := congrArg (List.drop 8) spelled
    rwa [List.drop_append_of_le_length long, List.drop_left' (Word.length_bytes fp),
      List.drop_drop] at both
  have given : Word.ofBytesAt reader.block reader.used = fp := by
    have split : reader.block.toList.drop reader.used =
        Word.bytes fp ++ reader.block.toList.drop (reader.used + 8) := by
      rw [← first, ← List.drop_drop, List.take_append_drop]
    exact Word.ofBytesAt_eq split
  refine ⟨given, ?_⟩
  exact
    { handle := spells.handle
      known := spells.known
      bytes := others
      remaining := by
        show reader.remaining - 1 = _
        rw [spells.remaining, List.length_cons, Nat.add_sub_cancel]
      unfinished := spells.unfinished }

theorem next_apply (reader : Reader) (before : Volume) :
    reader.next before =
      if reader.finished then ((reader, .ended), before)
      else if reader.remaining = 0 then
        (({ reader with finished := true },
          if reader.sum = reader.header.checksum then .ended
          else .failed (.corrupt reader.path .checksumMismatch)), before)
      else
        match reader.fill before with
        | (.ok filled, after) => ((filled.take.1, .value filled.take.2), after)
        | (.error failure, after) =>
            (({ reader with finished := true },
              .failed (.storage (.reading reader.path) failure)), after) := by
  have filling (rest : Except Failure Reader → StateM Volume (Reader × Pull)) :
      ((reader.fill).run >>= rest) before = rest (reader.fill before).1 (reader.fill before).2 := rfl
  rw [next]
  split
  · rfl
  · split
    · dsimp only
      split <;> rfl
    · rw [filling]
      rcases reader.fill before with ⟨_ | _, _⟩ <;> rfl

/-- Asking for the first entry that a reader spells gives it, unless a step is refused.  The
reader then spells the others, and its sum has taken the entry in. -/
theorem next_spells {reader : Reader} {id : FileId} {fp : Fingerprint} {fps : List Fingerprint}
    (spells : reader.Spells before id (fp :: fps)) :
    ∃ next pull after, reader.next before = ((next, pull), after) ∧
      Changes Nowhere NoFile before after ∧
        ((pull = .value fp ∧ next.Spells after id fps ∧
            next.label = (reader.path, reader.header, Fnv.absorbFingerprint reader.sum fp)) ∨
          ((∃ error, pull = .failed error) ∧ ¬before.Quiet)) := by
  have notAll : reader.remaining ≠ 0 := by simp [spells.remaining]
  have unfolded := next_apply reader before
  rw [if_neg (by simp [spells.unfinished]), if_neg notAll] at unfolded
  rcases (fill_runs spells (List.cons_ne_nil fp fps)).cases with
    ⟨filled, after, result, changes, filledSpells, same, enough⟩ |
    ⟨failure, after, result, changes, refused⟩
  · rw [result] at unfolded
    obtain ⟨given, rest⟩ := take_spells filledSpells enough
    refine ⟨_, _, after, unfolded, changes, Or.inl ⟨congrArg Pull.value given, rest, ?_⟩⟩
    obtain ⟨path, header, sum⟩ := Prod.mk.inj same |>.imp_right Prod.mk.inj
    show (filled.path, filled.header, Fnv.absorbFingerprint filled.sum filled.take.2) = _
    rw [path, header, sum, given]
  · rw [result] at unfolded
    exact ⟨_, _, after, unfolded, changes, Or.inr ⟨⟨_, rfl⟩, refused⟩⟩

/-- Asking a reader with no entries left ends it, well if its checksum is right. -/
theorem next_spells_nil {reader : Reader} {id : FileId} (spells : reader.Spells before id []) :
    reader.next before =
      (({ reader with finished := true },
        if reader.sum = reader.header.checksum then .ended
        else .failed (.corrupt reader.path .checksumMismatch)), before) := by
  have none : reader.remaining = 0 := spells.remaining
  rw [next_apply, if_neg (by simp [spells.unfinished]), if_pos none]

theorem next_gives {reader : Reader} {used : FileId → Prop} {fps : List Fingerprint}
    (delivers : reader.Delivers before used fps) :
    Gives reader.next before fps fun reader after rest => reader.Delivers after used rest := by
  obtain ⟨id, isUsed, stands⟩ := delivers
  cases fps with
  | nil =>
      have sum : reader.sum = reader.header.checksum := stands.sum
      refine ⟨{ reader with finished := true }, .ended, before, ?_, .refl before, rfl, trivial⟩
      rw [next_spells_nil stands.spells, if_pos sum]
  | cons fp fps =>
      obtain ⟨next, _, after, asked, changes, ⟨rfl, rest, same⟩ | ⟨⟨_, rfl⟩, refused⟩⟩ :=
        next_spells stands.spells
      · obtain ⟨-, header, sum⟩ := Prod.mk.inj same |>.imp_right Prod.mk.inj
        have right : fps.foldl Fnv.absorbFingerprint next.sum = next.header.checksum := by
          rw [header, sum]
          exact stands.sum
        exact ⟨next, _, after, asked, changes, fps, rfl, id, isUsed, rest.stands right⟩
      · exact ⟨next, _, after, asked, changes, refused⟩

/-! ## Reading anything -/

theorem openAt_looks (path : Path) (kind : Kind) : Looks (openAt path kind) := by
  apply Looks.bind (Looks.adapt (openFile_looks path))
  intro handle
  apply Looks.bind (Looks.adapt (readAt_looks handle 0 headerLength))
  intro bytes
  apply Looks.bind
  · show Looks (Task.ofExcept ((Header.decode kind bytes.toList).mapError (Error.corrupt path)))
    cases (Header.decode kind bytes.toList).mapError (Error.corrupt path) with
    | ok header => exact Looks.pure header
    | error error => exact Looks.throw error
  · intro header
    apply Looks.bind (Looks.adapt (fileLength_looks handle))
    intro length
    split
    · exact Looks.pure _
    · exact Looks.throw _

theorem fill_looks (reader : Reader) : Looks reader.fill := by
  rw [fill]
  split
  · exact Looks.pure reader
  · apply Looks.bind ((readAt_looks reader.handle reader.position readAheadLength).bind fun _ =>
      Looks.pure _)
    intro filled
    split
    · exact Looks.pure filled
    · exact Looks.throw _

/-- Asking any reader changes nothing. -/
theorem next_changes (reader : Reader) (before : Volume) :
    Changes Nowhere NoFile before (reader.next before).2 := by
  rw [next_apply]
  split
  · exact .refl before
  · split
    · exact .refl before
    · have looks := fill_looks reader before
      unfold Meets at looks
      split at looks <;> rename_i result <;> rw [result] <;> exact looks

end SortedFile.Reader

end FingerprintSet
