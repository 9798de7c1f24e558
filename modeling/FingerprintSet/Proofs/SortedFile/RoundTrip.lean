import FingerprintSet.Proofs.Ascending
import FingerprintSet.Proofs.SortedFile.Damage
import FingerprintSet.Proofs.SortedFile.Writing

/-!
# Files written and read again

What is written is read back, and what is read to its end is written again as the same bytes,
but for the reserved ones.  So a kind, a list of entries and nothing else is what a file says.
-/

namespace FingerprintSet

open Storage Volume

instance : Std.LawfulOrderMax Fingerprint := by
  have max_eq (a b : Fingerprint) : max a b = if a ≤ b then b else a := rfl
  refine .of_max_le_iff (fun a b c => ?_) fun a b => ?_
  · rw [max_eq]
    split
    · rename_i below
      exact ⟨fun most => ⟨UInt64.le_trans below most, most⟩, fun both => both.2⟩
    · rename_i above
      have below := UInt64.le_of_lt (UInt64.not_le.mp above)
      exact ⟨fun most => ⟨most, UInt64.le_trans below most⟩, fun both => both.1⟩
  · rw [max_eq]
    split
    · exact Or.inr rfl
    · exact Or.inl rfl

namespace Ascending

variable {fps : List Fingerprint}

theorem head?_eq_min? (ascending : Ascending fps) : fps.head? = fps.min? := by
  cases fps with
  | nil => rfl
  | cons fp fps =>
      refine (List.min?_eq_some_iff.mpr ⟨List.mem_cons_self, fun other mem => ?_⟩).symm
      rcases List.mem_cons.mp mem with rfl | mem
      · exact UInt64.le_refl _
      · exact UInt64.le_of_lt (List.rel_of_pairwise_cons ascending mem)

theorem getLast?_eq_max? (ascending : Ascending fps) : fps.getLast? = fps.max? := by
  rcases List.eq_nil_or_concat fps with rfl | ⟨front, fp, rfl⟩
  · rfl
  · rw [List.concat_eq_append] at ascending ⊢
    rw [List.getLast?_concat]
    refine (List.max?_eq_some_iff.mpr ⟨List.mem_concat_self, fun other mem => ?_⟩).symm
    rcases List.mem_append.mp mem with mem | mem
    · have apart := (List.pairwise_append.mp ascending).2.2
      exact UInt64.le_of_lt (apart other mem fp List.mem_cons_self)
    · rw [List.mem_singleton.mp mem]
      exact UInt64.le_refl _

end Ascending

namespace SortedFile

/-! ## The index -/

/-- The entries at the multiples of a stride, counted from a place on; none for stride zero. -/
def sampledFrom (stride place : Nat) (fps : List Fingerprint) : List Fingerprint :=
  ((fps.zipIdx place).filter fun item => 0 < stride ∧ item.2 % stride = 0).map (·.1)

theorem sampledFrom_cons (stride place : Nat) (fp : Fingerprint) (fps : List Fingerprint) :
    sampledFrom stride place (fp :: fps) =
      (if 0 < stride ∧ place % stride = 0 then [fp] else []) ++
        sampledFrom stride (place + 1) fps := by
  rw [sampledFrom, List.zipIdx_cons, List.filter_cons]
  split
  · rename_i taken
    rw [if_pos (of_decide_eq_true taken)]
    rfl
  · rename_i left
    rw [if_neg fun taken => left (decide_eq_true taken)]
    rfl

namespace Writer

variable {before : Volume}

/-- What the next index entries depend on. -/
def sample (writer : Writer) : Nat × Nat × List Fingerprint :=
  (writer.stride, writer.count, writer.index.toList)

theorem sample_flush {writer flushed : Writer}
    (result : (writer.flush before).1 = .ok flushed) : flushed.sample = writer.sample := by
  rw [flush] at result
  split at result
  · rw [← Except.ok.inj result]
  · rw [Storage.bind_apply] at result
    split at result
    · rw [← Except.ok.inj result]
      rfl
    · contradiction

/-- What is given up has no result, so the result is that of the work itself. -/
theorem orAbandon_ok {α : Type} {writer : Writer} {task : Task α} {a : α}
    (result : (writer.orAbandon task before).1 = .ok a) : (task before).1 = .ok a := by
  rw [orAbandon, Storage.tryCatch_apply] at result
  split at result
  · rename_i worked
    rw [worked]
    exact result
  · rename_i failed
    rw [Storage.bind_apply] at result
    split at result <;> contradiction

theorem sample_flushed {writer flushed : Writer} {activity : Activity}
    (result : (writer.orAbandon (activity.run writer.flush) before).1 = .ok flushed) :
    flushed.sample = writer.sample := by
  have worked := orAbandon_ok result
  rw [Activity.run, Storage.adapt_apply] at worked
  split at worked
  · rename_i ended
    obtain rfl := Except.ok.inj worked
    exact sample_flush (congrArg Prod.fst ended)
  · contradiction

theorem sample_gather (writer : Writer) (fp : Fingerprint) :
    (writer.gather fp).sample =
      (writer.stride, writer.count + 1, writer.index.toList ++
        if 0 < writer.stride ∧ writer.count % writer.stride = 0 then [fp] else []) := by
  rw [sample, gather]
  dsimp only
  split
  · rw [Array.toList_push]
  · rw [List.append_nil]

theorem sample_push {writer pushed : Writer} {fp : Fingerprint}
    (result : (writer.push fp before).1 = .ok pushed) :
    pushed.sample = (writer.gather fp).sample := by
  rw [push] at result
  split at result
  · rw [Storage.bind_apply] at result
    split at result
    · rename_i flushed _ ended
      obtain rfl := Except.ok.inj result
      have same := sample_flushed (congrArg Prod.fst ended)
      simp only [sample, Prod.mk.injEq] at same
      obtain ⟨stride, count, index⟩ := same
      rw [sample_gather, sample_gather, stride, count, index]
    · contradiction
  · rw [← Except.ok.inj result]

theorem index_pushAll {fps : List Fingerprint} {writer pushed : Writer}
    (result : (writer.pushAll fps before).1 = .ok pushed) :
    pushed.index.toList = writer.index.toList ++ sampledFrom writer.stride writer.count fps := by
  induction fps generalizing writer before with
  | nil =>
      rw [← Except.ok.inj result]
      exact (List.append_nil _).symm
  | cons fp fps ih =>
      rw [pushAll, List.foldlM_cons, Storage.bind_apply] at result
      split at result
      · rename_i next _ ended
        have same := sample_push (congrArg Prod.fst ended)
        rw [sample_gather, sample] at same
        simp only [Prod.mk.injEq] at same
        obtain ⟨stride, count, index⟩ := same
        rw [ih result, index, stride, count, sampledFrom_cons, List.append_assoc]
      · contradiction

theorem index_finish {writer : Writer} {written : Written}
    (result : (writer.finish before).1 = .ok written) : written.index = writer.index := by
  rw [finish, Storage.bind_apply] at result
  split at result
  · rename_i flushed _ ended
    rw [Storage.bind_apply] at result
    split at result
    · obtain rfl := Except.ok.inj result
      have same := sample_flushed (congrArg Prod.fst ended)
      simp only [sample, Prod.mk.injEq] at same
      exact Array.toList_inj.mp same.2.2
    · contradiction
  · contradiction

end Writer

/-- The index of a written file has the entries at the multiples of its stride. -/
theorem index_writeList {path : Path} {kind : Kind} {durable : Bool} {stride : Nat}
    {fps : List Fingerprint} {before : Volume} {written : Written}
    (result : (writeList path kind durable stride fps before).1 = .ok written) :
    written.index.toList = sampledFrom stride 0 fps := by
  rw [writeList, Storage.bind_apply] at result
  split at result
  · rename_i writer _ created
    rw [Storage.bind_apply] at result
    split at result
    · rename_i pushed _ ended
      rw [Writer.index_finish result, Writer.index_pushAll (congrArg Prod.fst ended)]
      rw [Writer.create, Storage.bind_apply] at created
      split at created
      · obtain rfl := Except.ok.inj (congrArg Prod.fst created)
        exact List.nil_append _
      · exact absurd (congrArg Prod.fst created) nofun
    · contradiction
  · contradiction

/-! ## Files of another kind -/

variable {kind other : Kind} {before : Volume} {path : Path} {fps : List Fingerprint}

theorem decode_otherKind (header : Header) (different : other ≠ kind) :
    Header.decode other (header.encode kind) = .error .badMagic := by
  have magic : (header.encode kind).take 4 = kind.magic := by
    rw [Header.encode, List.append_assoc, List.append_assoc, List.append_assoc]
    exact List.take_left' (length_magic kind)
  have letters : kind.magic ≠ other.magic := by
    cases kind <;> cases other <;> first | contradiction | decide
  rw [Header.decode, if_neg (by simp), if_pos (by rw [magic]; exact letters)]

/-- A file opened as one of the other kind is rejected at its first letters. -/
theorem openAt_otherKind {id : FileId} (sound : before.Sound) (quiet : before.Quiet)
    (holds : Holds before path kind fps id) (different : other ≠ kind) :
    (Reader.openAt path other before).1 = .error (.corrupt path .badMagic) := by
  have known := sound.stored _ _ holds.bound
  obtain ⟨_, opened, openResult, changes, rfl⟩ :=
    (@Activity.runs _ (.opening path) _ _ _ _ _ (openFile_runs sound holds.bound)).of_quiet quiet
  have reads : Runs (ExceptT.adapt (fun cause => Error.corrupt path (.unreadableHeader cause))
      (readAt (.file id) 0 headerLength)) opened Nowhere NoFile _ :=
    Runs.adapt (readAt_runs id 0 headerLength)
  obtain ⟨_, afterRead, readResult, -, rfl⟩ := reads.of_quiet (changes.quiet quiet)
  have header : ((opened.read id).extract 0 (0 + headerLength)).toList =
      (headerOf fps).encode kind := by
    rw [changes.read_eq id known fun none => none, holds.bytes, Array.toList_extract,
      List.extract_eq_take_drop, Nat.zero_add, Nat.sub_zero, List.drop_zero, take_fileBytes]
  rw [Reader.openAt, Storage.bind_apply, openResult]
  dsimp only
  rw [Storage.bind_apply, readResult]
  dsimp only
  rw [header, decode_otherKind _ different]
  rfl

/-! ## The same bytes again -/

variable {bytes : Bytes} {header : Header}

/-- What stands before the reserved bytes is spelled by the fields that are looked at. -/
theorem Headed.front (headed : Headed kind header bytes) :
    bytes.toList.take 24 = kind.magic ++ Word.halfBytes formatVersion ++
      Word.bytes header.count ++ Word.bytes header.checksum := by
  have long : 32 ≤ bytes.size := headed.headerLength_le
  have fields : bytes.toList.take 24 =
      field bytes 0 4 ++ field bytes 4 4 ++ field bytes 8 8 ++ field bytes 16 8 := by
    simp only [field, ← List.take_add, List.drop_zero]
  have version : field bytes 4 4 = Word.halfBytes formatVersion := by
    refine Word.natOfBytes_inj (length_field (by omega)) ?_
    rw [headed.version, Word.natOfBytes_halfBytes]
  have count : field bytes 8 8 = Word.bytes header.count := by
    rw [← headed.count, Word.bytes_ofBytes (length_field (by omega))]
  have checksum : field bytes 16 8 = Word.bytes header.checksum := by
    rw [← headed.checksum, Word.bytes_ofBytes (length_field (by omega))]
  rw [fields, headed.magic, version, count, checksum]

/-- An intact file is what is written of its entries, but for the reserved bytes. -/
theorem fileBytes_entriesIn (intact : Intact kind header bytes) :
    fileBytes kind (entriesIn bytes) = splice bytes 24 (Array.replicate 8 0) := by
  have headed := intact.headed
  have long : 32 ≤ bytes.size := headed.headerLength_le
  have sameHeader : headerOf (entriesIn bytes) = header := by
    rw [headerOf, intact.sum, headed.length_entries, UInt64.ofNat_toNat]
  have front : (bytes.extract 0 24).toList = bytes.toList.take 24 := by
    rw [Array.toList_extract, List.extract_eq_take_drop, Nat.sub_zero, List.drop_zero]
  have back : (bytes.extract headerLength bytes.size).toList = Word.allBytes (entriesIn bytes) := by
    rw [(allBytes_entriesIn headed.length).1, Array.toList_extract, List.extract_eq_take_drop,
      ← Array.length_toList, ← List.length_drop, List.take_length]
  have spliced : (splice bytes 24 (Array.replicate 8 0)).toList =
      (bytes.extract 0 24).toList ++ List.replicate 8 0 ++
        (bytes.extract headerLength bytes.size).toList := by
    rw [splice, Nat.sub_eq_zero_of_le (by omega)]
    simp [headerLength]
  rw [← Array.toList_inj, spliced, front, headed.front, back, fileBytes, sameHeader, Header.encode]

/-! ## There and back -/

variable {dir : Path} {name : String}

/-- Files of a kind and lists of entries are the same thing.  The first part is about any
ascending list that a header can count: written and finished, it is a file of the right length
that gives the list again, that is rejected as a file of the other kind, and that was described
rightly.  The second part is about any file that is read to its end: its entries, written as a
file, are the same bytes with the reserved ones zero. -/
theorem round_trip (sound : before.Sound) (quiet : before.Quiet) (isDir : before.IsDir dir)
    (fits : FitsDirectory name) (free : before.binding? (dir.child name) = none) (kind : Kind)
    (durable : Bool) (stride : Nat) :
    (∀ fps, Ascending fps → fps.length < countLimit →
      ∃ written after bytes,
        writeList (dir.child name) kind durable stride fps before = (.ok written, after) ∧
          after.bytes? (dir.child name) = some bytes ∧
          bytes.size = headerLength + entryLength * fps.length ∧
          (readAll (dir.child name) kind after).1 = .ok fps ∧
          (∀ other, other ≠ kind → (Reader.openAt (dir.child name) other after).1 =
            .error (.corrupt (dir.child name) .badMagic)) ∧
          written.count = fps.length ∧ written.checksum = Fnv.checksum fps ∧
          written.first = fps.min? ∧ written.last = fps.max? ∧
          written.index.toList = sampledFrom stride 0 fps) ∧
    ∀ source bytes fps, before.bytes? source = some bytes →
      (readAll source kind before).1 = .ok fps →
        ∃ written after,
          writeList (dir.child name) kind durable stride fps before = (.ok written, after) ∧
            after.bytes? (dir.child name) = some (splice bytes 24 (Array.replicate 8 0)) := by
  have nonempty := Path.child_ne_nil dir name
  constructor
  · intro fps ascending few
    obtain ⟨written, after, result, changes, holds, -, describes⟩ :=
      (writeList_runs sound isDir fits free kind durable stride fps).of_quiet quiet
    have soundAfter := changes.sound sound
    have quietAfter := changes.quiet quiet
    have there : after.bytes? (dir.child name) = some (fileBytes kind fps) :=
      bytes?_eq_some_iff.mpr ⟨_, holds.bound, holds.bytes⟩
    obtain ⟨read, final, reads, -, same⟩ := (readAll_decides soundAfter nonempty).ok quietAfter
      ⟨_, _, there, intact_fileBytes few⟩
    rw [there, Option.map_some, entriesIn_fileBytes] at same
    refine ⟨written, after, _, result, there, size_fileBytes kind fps, ?_, ?_, describes.count,
      describes.checksum, describes.first.trans ascending.head?_eq_min?,
      describes.last.trans ascending.getLast?_eq_max?,
      index_writeList (congrArg Prod.fst result)⟩
    · rw [reads, ← Option.some.inj same]
    · exact fun other different => openAt_otherKind soundAfter quietAfter holds different
  · intro source bytes fps there reads
    have sourced : source ≠ [] := by
      rintro rfl
      exact binding?_of_bytes? (by simp [there]) sound.rootless
    rcases (@readAll_decides kind _ _ sound sourced).cases with
      ⟨given, final, result, -, ⟨other, header, also, intact⟩, same⟩ | ⟨error, final, result, -⟩
    · rw [result] at reads
      obtain rfl := Except.ok.inj reads
      obtain rfl := Option.some.inj (there.symm.trans also)
      rw [there, Option.map_some] at same
      obtain ⟨written, after, wrote, -, holds, -⟩ :=
        (writeList_runs sound isDir fits free kind durable stride given).of_quiet quiet
      refine ⟨written, after, wrote, bytes?_eq_some_iff.mpr ⟨_, holds.bound, ?_⟩⟩
      rw [holds.bytes, ← Option.some.inj same, fileBytes_entriesIn intact]
    · rw [result] at reads
      contradiction

/-- A volume with one page, whose reserved bytes are used for something. -/
def annotated : Volume :=
  Volume.bind { contents := #[splice (fileBytes .page [3, 5]) 24 (Array.replicate 8 1)] } ["old"]
    (.file 0)

theorem annotated_binding? (path : Path) :
    annotated.binding? path = if ["old"] = path then some (.file 0) else none := by
  rw [annotated, bind_binding?]
  split
  · rfl
  · exact Std.TreeMap.getElem?_emptyc

theorem annotated_bound {path : Path} (present : annotated.binding? path ≠ none) :
    path = ["old"] := by
  rw [annotated_binding?] at present
  split at present
  · rename_i same
    exact same.symm
  · contradiction

theorem annotated_sound : annotated.Sound where
  rootless := by rw [annotated_binding?, if_neg (by decide)]
  parented dir name present := by
    have same : dir ++ [name] = [] ++ ["old"] := annotated_bound present
    exact Or.inl (List.append_inj' same rfl).1
  named path present name mem := by
    rw [annotated_bound present, List.mem_singleton] at mem
    subst mem
    constructor <;> decide
  stored path id bound := by
    rw [annotated_binding?] at bound
    split at bound
    · cases bound
      exact Nat.zero_lt_one
    · contradiction
  apart first second id bound also :=
    (annotated_bound (by simp [bound])).trans (annotated_bound (by simp [also])).symm

/-- The least and the greatest entry there can be, in a page beside an annotated one that is
then written again. -/
theorem round_trip_annotated :
    (∃ written after,
      writeList ["new"] .page true 2 [0, 5, 0xffffffffffffffff] annotated = (.ok written, after) ∧
        (readAll ["new"] .page after).1 = .ok [0, 5, 0xffffffffffffffff] ∧
        written.index.toList = [0, 0xffffffffffffffff]) ∧
      ∃ written after, writeList ["new"] .page true 2 [3, 5] annotated = (.ok written, after) ∧
        after.bytes? ["new"] = some (fileBytes .page [3, 5]) := by
  have quiet : annotated.Quiet := fun _ _ => rfl
  have isDir : annotated.IsDir [] := Or.inl rfl
  have fits : FitsDirectory "new" := by constructor <;> decide
  have free : annotated.binding? ["new"] = none := by decide +kernel
  obtain ⟨written, again⟩ := round_trip annotated_sound quiet isDir fits free .page true 2
  constructor
  · obtain ⟨first, after, -, wrote, -, -, read, -, -, -, -, -, index⟩ :=
      written [0, 5, 0xffffffffffffffff] (by simp [Ascending]) (by decide)
    exact ⟨first, after, wrote, read, index⟩
  · have reads : (readAll ["old"] .page annotated).1.toOption = some [3, 5] := by decide +kernel
    have read : (readAll ["old"] .page annotated).1 = .ok [3, 5] := by
      generalize (readAll ["old"] .page annotated).1 = result at reads
      cases result with
      | error error => contradiction
      | ok fps => exact congrArg Except.ok (Option.some.inj reads)
    obtain ⟨second, after, wrote, there⟩ := again ["old"] _ _ rfl read
    exact ⟨second, after, wrote, there.trans (by decide +kernel)⟩

end SortedFile

end FingerprintSet
