import FingerprintSet.Proofs.SortedFile.Reading
import FingerprintSet.Proofs.Storage.Deciding

/-!
# Which files are read to the end

A file of any bytes is opened exactly if it begins with a header of its kind that counts as many
entries as the file is long, and it is then read to the end exactly if the checksum of these
entries is the one in the header.  What is read are the entries, in their order.
-/

namespace FingerprintSet

open Storage Volume

namespace SortedFile

/-- So many bytes of a file from a position on. -/
def field (bytes : Bytes) (start width : Nat) : List UInt8 :=
  (bytes.toList.drop start).take width

/-- A file that begins with the given header, of its kind and of its length.  The bytes behind the
checksum are not looked at. -/
structure Headed (kind : Kind) (header : Header) (bytes : Bytes) : Prop where
  magic : field bytes 0 4 = kind.magic
  version : Word.natOfBytes (field bytes 4 4) = formatVersion.toNat
  count : Word.ofBytes (field bytes 8 8) = header.count
  checksum : Word.ofBytes (field bytes 16 8) = header.checksum
  length : bytes.size = header.fileLength

/-- A file whose entries have the checksum that its header says. -/
structure Intact (kind : Kind) (header : Header) (bytes : Bytes) : Prop where
  headed : Headed kind header bytes
  sum : Fnv.checksum (entriesIn bytes) = header.checksum

variable {kind : Kind} {header : Header} {bytes : Bytes} {before : Volume} {path : Path}

theorem Headed.unique {other : Header} (headed : Headed kind header bytes)
    (also : Headed kind other bytes) : header = other := by
  cases header
  cases other
  exact congr (congrArg Header.mk (headed.count.symm.trans also.count))
    (headed.checksum.symm.trans also.checksum)

theorem Headed.length_entries (headed : Headed kind header bytes) :
    (entriesIn bytes).length = header.count.toNat :=
  (allBytes_entriesIn headed.length).2

/-! ## Headers -/

theorem decode_eq_ok_iff {spelled : List UInt8} :
    Header.decode kind spelled = .ok header ↔
      headerLength ≤ spelled.length ∧ spelled.take 4 = kind.magic ∧
        Word.natOfBytes ((spelled.drop 4).take 4) = formatVersion.toNat ∧
        Word.ofBytes ((spelled.drop 8).take 8) = header.count ∧
        Word.ofBytes ((spelled.drop 16).take 8) = header.checksum := by
  rw [Header.decode]
  split
  · rename_i short
    refine ⟨fun impossible => ?_, fun long => absurd long.1 (Nat.not_le.mpr short)⟩
    contradiction
  · rename_i long
    split
    · rename_i other
      refine ⟨fun impossible => ?_, fun same => absurd same.2.1 other⟩
      contradiction
    · rename_i magic
      dsimp only
      split
      · rename_i other
        refine ⟨fun impossible => ?_, fun same => absurd same.2.2.1 other⟩
        contradiction
      · rename_i version
        cases header
        rw [Except.ok.injEq, Header.mk.injEq]
        exact ⟨fun same => ⟨Nat.not_lt.mp long, Decidable.not_not.mp magic, Decidable.not_not.mp version, same⟩,
          fun same => same.2.2.2⟩

/-- A file is headed if its header is read and agrees with its length. -/
theorem headed_iff : Headed kind header bytes ↔
    Header.decode kind (bytes.extract 0 headerLength).toList = .ok header ∧
      bytes.size = header.fileLength := by
  have front : (bytes.extract 0 headerLength).toList = bytes.toList.take headerLength := by
    rw [Array.toList_extract, List.extract_eq_take_drop, Nat.sub_zero, List.drop_zero]
  have part (start width : Nat) (inside : start + width ≤ headerLength) :
      ((bytes.toList.take headerLength).drop start).take width = field bytes start width := by
    rw [List.drop_take, List.take_take, Nat.min_eq_left (Nat.le_sub_of_add_le' inside)]
    rfl
  have magic := part 0 4 (by decide)
  rw [List.drop_zero] at magic
  rw [front, decode_eq_ok_iff, magic, part 4 4 (by decide), part 8 8 (by decide),
    part 16 8 (by decide), List.length_take, Array.length_toList]
  constructor
  · intro headed
    have long : headerLength ≤ bytes.size := by
      rw [headed.length]
      exact Nat.le_add_right _ _
    exact ⟨⟨Nat.le_min.mpr ⟨Nat.le_refl _, long⟩, headed.magic, headed.version, headed.count,
      headed.checksum⟩, headed.length⟩
  · rintro ⟨⟨-, magic, version, count, checksum⟩, length⟩
    exact { magic, version, count, checksum, length }

/-- A finished file is intact. -/
theorem intact_fileBytes {fps : List Fingerprint} (few : fps.length < countLimit) :
    Intact kind (headerOf fps) (fileBytes kind fps) where
  headed := by
    refine headed_iff.mpr ⟨?_, ?_⟩
    · rw [Array.toList_extract, List.extract_eq_take_drop, Nat.sub_zero, List.drop_zero,
        take_fileBytes, decode_encode]
    · rw [size_fileBytes, Header.fileLength, count_headerOf few]
  sum := by rw [entriesIn_fileBytes, headerOf]

namespace Reader

/-! ## Opening -/

/-- A file is opened exactly if it has a header of its kind and of its length. -/
theorem openAt_decides (sound : before.Sound) (nonempty : path ≠ []) :
    Decides (openAt path kind) before
      (∃ bytes header, before.bytes? path = some bytes ∧ Headed kind header bytes)
      fun reader after => ∃ bytes id, before.bytes? path = some bytes ∧
        Headed kind reader.header bytes ∧ reader.Spells after id (entriesIn bytes) ∧
        reader.path = path ∧ reader.sum = Fnv.basis := by
  have open_ : Decides ((Activity.opening path).run (openFile path)) before _ _ :=
    .adapt (openFile_decides sound nonempty)
  refine .bind open_ ?_ ?_
  · rintro ⟨bytes, -, there, -⟩
    exact binding?_of_bytes? (by simp [there])
  rintro _ opened changes - (⟨rfl, none⟩ | ⟨id, rfl, bound⟩)
  · refine .of_fails (readAt_directory_fails 0 headerLength).adapt.bind ?_
    rintro ⟨bytes, -, there, -⟩
    rw [none] at there
    contradiction
  have known := sound.stored path id bound
  have there := bytes?_eq bound
  refine .bind (.adapt (.of_runs (readAt_runs id 0 headerLength) trivial)) (fun _ => trivial) ?_
  rintro _ afterRead more - rfl
  have same : opened.read id = before.read id := changes.read_eq id known fun none => none
  have sameRead : afterRead.read id = before.read id :=
    (changes.trans more).read_eq id known fun none => none
  rw [same, Nat.zero_add]
  cases decoded : Header.decode kind ((before.read id).extract 0 headerLength).toList with
  | error defect =>
      have fails : Fails (Task.ofExcept ((Except.error defect : Except Defect Header).mapError
          (Error.corrupt path))) afterRead := Meets.of_error rfl (.refl afterRead)
      refine .of_fails fails.bind ?_
      rintro ⟨bytes, header, found, headed⟩
      obtain rfl := Option.some.inj (there.symm.trans found)
      rw [(headed_iff.mp headed).1] at decoded
      contradiction
  | ok header =>
      have decides : Decides (Task.ofExcept ((Except.ok header : Except Defect Header).mapError
          (Error.corrupt path))) afterRead True fun given after =>
            header = given ∧ afterRead = after := .pure trivial ⟨rfl, rfl⟩
      refine .bind decides (fun _ => trivial) ?_
      rintro _ _ - - ⟨rfl, rfl⟩
      refine .bind (.adapt (.of_runs (fileLength_runs id) trivial)) (fun _ => trivial) ?_
      rintro _ measured last - rfl
      rw [sameRead]
      split
      · rename_i length
        have headed : Headed kind header (before.read id) := headed_iff.mpr ⟨decoded, length⟩
        refine .pure ⟨_, header, there, headed⟩ ⟨_, id, there, headed, ?_, rfl, rfl⟩
        exact
          { handle := rfl
            known := Nat.lt_of_lt_of_le known ((changes.trans more).trans last).size_le
            bytes := by
              rw [((changes.trans more).trans last).read_eq id known fun none => none]
              exact (allBytes_entriesIn length).1.symm
            remaining := headed.length_entries.symm
            unfinished := rfl }
      · rename_i length
        refine .throw ?_
        rintro ⟨bytes, other, found, headed⟩
        obtain rfl := Option.some.inj (there.symm.trans found)
        obtain ⟨decodedToo, lengthToo⟩ := headed_iff.mp headed
        rw [decoded] at decodedToo
        obtain rfl := Except.ok.inj decodedToo
        exact length lengthToo

/-! ## Reading to the end -/

/-- Read the other entries of a file to its end.  At most `bound` are asked for. -/
def drain : Nat → Reader → Task (List Fingerprint)
  | 0, _ => pure []
  | bound + 1, reader => do
      let (reader, pull) ← (reader.next : StateM Volume (Reader × Pull))
      match pull with
      | .ended => pure []
      | .failed error => throw error
      | .value fp => return fp :: (← drain bound reader)

theorem drain_apply (bound : Nat) (reader : Reader) (before : Volume) :
    drain (bound + 1) reader before =
      match reader.next before with
      | ((_, .ended), after) => (.ok [], after)
      | ((_, .failed error), after) => (.error error, after)
      | ((reader, .value fp), after) =>
          ((drain bound reader after).1.map (fp :: ·), (drain bound reader after).2) := by
  have unfolded : drain (bound + 1) reader before =
      (match (reader.next before).1.2 with
        | .ended => pure []
        | .failed error => throw error
        | .value fp => return fp :: (← drain bound (reader.next before).1.1) :
          Task (List Fingerprint)) (reader.next before).2 := rfl
  rw [unfolded]
  rcases reader.next before with ⟨⟨reader, fp | _ | _⟩, after⟩
  · exact map_apply (fp :: ·) (drain bound reader) after
  · rfl
  · rfl

/-- A reader gives exactly the entries it spells, and ends well exactly if their checksum is
right. -/
theorem drain_decides {bound : Nat} {reader : Reader} {id : FileId} {fps : List Fingerprint}
    (spells : reader.Spells before id fps) (enough : fps.length < bound) :
    Decides (drain bound reader) before
      (fps.foldl Fnv.absorbFingerprint reader.sum = reader.header.checksum)
      fun given _ => given = fps := by
  induction fps generalizing bound reader before with
  | nil =>
      obtain ⟨bound, rfl⟩ := Nat.exists_eq_succ_of_ne_zero (Nat.ne_zero_of_lt enough)
      have unfolded := drain_apply bound reader before
      rw [next_spells_nil spells] at unfolded
      rw [List.foldl_nil]
      by_cases right : reader.sum = reader.header.checksum
      · rw [if_pos right] at unfolded
        exact Meets.of_ok unfolded ⟨.refl before, right, rfl⟩
      · rw [if_neg right] at unfolded
        exact Meets.of_error unfolded ⟨.refl before, fun _ => right⟩
  | cons fp fps ih =>
      obtain ⟨bound, rfl⟩ := Nat.exists_eq_succ_of_ne_zero (Nat.ne_zero_of_lt enough)
      have unfolded := drain_apply bound reader before
      obtain ⟨next, _, after, asked, changes, ⟨rfl, rest, same⟩ | ⟨⟨error, rfl⟩, refused⟩⟩ :=
        next_spells spells
      · obtain ⟨-, header, sum⟩ := Prod.mk.inj same |>.imp_right Prod.mk.inj
        have others := ih rest (Nat.lt_of_succ_lt_succ enough)
        rw [header, sum] at others
        rw [asked] at unfolded
        dsimp only at unfolded
        rcases (others.since changes).cases with
          ⟨_, final, result, both, right, rfl⟩ | ⟨failure, final, result, both⟩
        · rw [result] at unfolded
          exact Meets.of_ok unfolded ⟨both, right, rfl⟩
        · rw [result] at unfolded
          exact Meets.of_error unfolded both
      · rw [asked] at unfolded
        exact Meets.of_error unfolded ⟨changes, fun quiet => absurd quiet refused⟩

end Reader

/-- Read a file of a kind to its end. -/
def readAll (path : Path) (kind : Kind) : Task (List Fingerprint) := do
  let reader ← Reader.openAt path kind
  reader.drain (reader.remaining + 1)

/-- A file is read to its end exactly if it is intact, and what is read are its entries. -/
theorem readAll_decides (sound : before.Sound) (nonempty : path ≠ []) :
    Decides (readAll path kind) before
      (∃ bytes header, before.bytes? path = some bytes ∧ Intact kind header bytes)
      fun fps _ => (before.bytes? path).map entriesIn = some fps := by
  refine .bind (Reader.openAt_decides sound nonempty) ?_ ?_
  · rintro ⟨bytes, header, there, intact⟩
    exact ⟨bytes, header, there, intact.headed⟩
  rintro reader after _ - ⟨bytes, id, there, headed, spells, -, start⟩
  have reads := Reader.drain_decides spells (Nat.lt_succ_of_le (Nat.le_of_eq spells.remaining.symm))
  rw [start] at reads
  refine reads.mono ⟨fun sum => ⟨bytes, _, there, headed, sum⟩, ?_⟩ ?_
  · rintro ⟨other, header, also, intact⟩
    obtain rfl := Option.some.inj (there.symm.trans also)
    rw [headed.unique intact.headed]
    exact intact.sum
  · rintro fps _ _ - rfl
    rw [there, Option.map_some]

end SortedFile

end FingerprintSet
