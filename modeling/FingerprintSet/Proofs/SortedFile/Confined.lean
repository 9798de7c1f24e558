import FingerprintSet.Merge
import FingerprintSet.Proofs.Merge
import FingerprintSet.Proofs.Storage.Confined
import FingerprintSet.SortedFile.Writer

/-!
# Sorted files keep to a region

Readers and merges go on with the files that they were opened on, and writers with the file that
they created.  So all that is done with sorted files keeps to a region in which their paths lie.
-/

namespace FingerprintSet

open Storage Volume Storage.Region

variable {region : Region} {α σ : Type}

/-! ## Reading files -/

namespace SortedFile.Reader

/-- A reader that may go on reading. -/
def Admitted (region : Region) (reader : Reader) : Prop :=
  region.Admits reader.handle

variable {reader : Reader}

theorem openAt_confined {path : Storage.Path} (reads : region.reads path) (kind : Kind) :
    region.ConfinesTask (openAt path kind) (Admitted region) := by
  refine (ConfinesTask.run (openFile_confined reads)).bind fun handle admits => ?_
  refine (ConfinesTask.adapt (readAt_confined admits 0 headerLength)).bind fun bytes _ => ?_
  refine (ConfinesTask.mono (.ofExcept fun _ told => told) fun _ _ => trivial).bind fun header _ => ?_
  refine (ConfinesTask.run (fileLength_confined admits)).bind fun length _ => ?_
  split
  · exact .pure admits
  · exact .throw _

theorem fill_confined (admitted : reader.Admitted region) :
    region.ConfinesTask reader.fill (Admitted region) := by
  rw [fill]
  split
  · exact .pure admitted
  · have refills : region.ConfinesTask reader.refill (Admitted region) :=
      (readAt_confined admitted _ _).bind fun _ _ => .pure admitted
    refine refills.bind fun filled still => ?_
    split
    · exact .pure still
    · exact .throw _

theorem next_confined (admitted : reader.Admitted region) :
    region.Confines reader.next fun asked _ => asked.1.Admitted region := by
  rw [next]
  split
  · exact .pure fun _ => admitted
  · split
    · dsimp only
      split <;> exact .pure fun _ => admitted
    · refine Confines.bind (fill_confined admitted) fun result _ filled => ?_
      cases result with
      | ok reader => exact .pure fun _ => filled reader rfl
      | error failure => exact .pure fun _ => admitted

end SortedFile.Reader

/-! ## Merging sources -/

/-- A source that may be asked. -/
def Source.Admitted (region : Region) : Source → Prop
  | memory _ => True
  | file reader => reader.Admitted region

theorem Source.next_confined {source : Source} (admitted : source.Admitted region) :
    region.Confines source.next fun asked _ => asked.1.Admitted region := by
  cases source with
  | memory fps => cases fps <;> exact .pure fun _ => trivial
  | file reader =>
      exact (SortedFile.Reader.next_confined admitted).bind fun _ _ still => .pure fun _ => still

namespace Merge

/-- Lanes whose sources may be asked. -/
def AdmitsLanes (region : Region) (lanes : List Lane) : Prop :=
  ∀ lane ∈ lanes, lane.source.Admitted region

/-- A merge whose sources may be asked. -/
def Admitted (region : Region) : Merge → Prop
  | fresh sources => ∀ source ∈ sources, source.Admitted region
  | running lanes _ => AdmitsLanes region lanes
  | failed => True

variable {lanes : List Lane} {merge : Merge}

theorem enter_confined (rank : Nat) {source : Source} (admitted : source.Admitted region)
    (admits : AdmitsLanes region lanes) :
    region.Confines (enter rank source lanes) fun entered _ =>
      ∀ lanes, entered = .ok lanes → AdmitsLanes region lanes := by
  refine (Source.next_confined admitted).bind fun asked _ still => ?_
  obtain ⟨next, fp | error | _⟩ := asked
  · refine .pure fun _ lanes same lane mem => ?_
    cases same
    rcases mem_place.mp mem with rfl | mem
    · exact still
    · exact admits lane mem
  · exact .pure fun _ _ impossible => nomatch impossible
  · exact .pure fun _ _ same => Except.ok.inj same ▸ admits

theorem start_confined {sources : List Source} (admitted : ∀ source ∈ sources, source.Admitted region)
    (rank : Nat) (admits : AdmitsLanes region lanes) :
    region.Confines (start rank lanes sources) fun started _ =>
      ∀ lanes, started = .ok lanes → AdmitsLanes region lanes := by
  induction sources generalizing rank lanes with
  | nil => exact .pure fun _ _ same => Except.ok.inj same ▸ admits
  | cons source sources ih =>
      rw [List.forall_mem_cons] at admitted
      refine (enter_confined rank admitted.1 admits).bind fun entered _ still => ?_
      cases entered with
      | ok lanes => exact ih admitted.2 (rank + 1) (still lanes rfl)
      | error error => exact .pure fun _ _ impossible => nomatch impossible

theorem advance_confined (last : Option Fingerprint) (bound : Nat)
    (admits : AdmitsLanes region lanes) :
    region.Confines (advance last bound lanes) fun asked _ => asked.1.Admitted region := by
  induction bound generalizing lanes with
  | zero => cases lanes <;> exact .pure fun _ => admits
  | succ bound ih =>
      cases lanes with
      | nil => exact .pure fun _ => admits
      | cons lane lanes =>
          rw [AdmitsLanes, List.forall_mem_cons] at admits
          refine (enter_confined lane.rank admits.1 admits.2).bind fun entered _ still => ?_
          cases entered with
          | error error => exact .pure fun _ => trivial
          | ok lanes =>
              dsimp only
              split
              · exact ih (still lanes rfl)
              · exact .pure fun _ => still lanes rfl

theorem next_confined (admitted : merge.Admitted region) :
    region.Confines merge.next fun asked _ => asked.1.Admitted region := by
  cases merge with
  | failed => exact .pure fun _ => trivial
  | running lanes last => exact advance_confined last (laneValues lanes) admitted
  | fresh sources =>
      have idle : AdmitsLanes region [] := fun _ impossible => nomatch impossible
      refine (start_confined admitted 0 idle).bind fun started _ still => ?_
      cases started with
      | error error => exact .pure fun _ => trivial
      | ok lanes => exact advance_confined none (laneValues lanes) (still lanes rfl)

theorem foldTo_confined {sink : σ → Fingerprint → Task σ} {giveUp : σ → Task Unit}
    {good : σ → Prop} (sinks : ∀ state fp, good state → region.ConfinesTask (sink state fp) good)
    (givesUp : ∀ state, good state → region.ConfinesTask (giveUp state) fun _ => True)
    (bound : Nat) (admitted : merge.Admitted region) {state : σ} (holds : good state) :
    region.ConfinesTask (foldTo sink giveUp bound merge state) good := by
  induction bound generalizing merge state with
  | zero => exact .pure holds
  | succ bound ih =>
      refine ConfinesTask.liftThen (next_confined admitted) fun asked _ still => ?_
      obtain ⟨next, fp | error | _⟩ := asked
      · exact (sinks state fp holds).bind fun taken takenHolds => ih still takenHolds
      · exact (givesUp state holds).bind fun _ _ => .throw error
      · exact .pure holds

end Merge

/-! ## Writing files -/

namespace SortedFile.Writer

/-- The writer of a file at a path that is not one of others. -/
def Own (region : Region) (path : Storage.Path) (writer : Writer) : Prop :=
  ¬region.others writer.file ∧ writer.path = path

variable {path : Storage.Path} {writer : Writer}

theorem create_confined (writes : region.writes path) (kind : Kind) (durable : Bool)
    (stride : Nat) : region.ConfinesTask (create path kind durable stride) (Own region path) :=
  (ConfinesTask.run (createFile_confined writes)).bind fun _ own => .pure ⟨own, rfl⟩

theorem flush_confined (own : writer.Own region path) :
    region.ConfinesTask writer.flush (Own region path) := by
  rw [flush]
  split
  · exact .pure own
  · exact (writeAt_confined own.1 _ _).bind fun _ _ => .pure own

theorem abandon_confined (own : writer.Own region path) :
    region.ConfinesTask writer.abandon fun _ => True :=
  Confines.andThen (flush_confined own) (fun _ volume => (.ok (), volume)) (fun _ => rfl)
    fun _ _ _ => Confines.pure fun _ _ _ => trivial

theorem orAbandon_confined (own : writer.Own region path) {task : Task α} {good : α → Prop}
    (confines : region.ConfinesTask task good) :
    region.ConfinesTask (writer.orAbandon task) good :=
  confines.tryCatch fun error => (abandon_confined own).bind fun _ _ => .throw error

theorem push_confined (own : writer.Own region path) (fp : Fingerprint) :
    region.ConfinesTask (writer.push fp) (Own region path) := by
  rw [push]
  split
  · exact (orAbandon_confined own (.run (flush_confined own))).bind fun _ flushed => .pure flushed
  · exact .pure own

theorem pushAll_confined (own : writer.Own region path) (fps : List Fingerprint) :
    region.ConfinesTask (writer.pushAll fps) (Own region path) :=
  ConfinesTask.foldlM (fun _ fp _ ownStill => push_confined ownStill fp) own

theorem finish_confined (own : writer.Own region path) :
    region.ConfinesTask writer.finish fun written => written.path = path := by
  refine (orAbandon_confined own (.run (flush_confined own))).bind fun last flushed => ?_
  have heads (position : Nat) (bytes : Bytes) : region.ConfinesTask
      (do
        writeAt last.file position bytes
        if last.durable then sync else pure ()) fun _ => True := by
    refine (writeAt_confined flushed.1 _ _).bind fun _ _ => ?_
    split
    · exact sync_confined
    · exact .pure trivial
  exact (heads _ _).run.bind fun _ _ => .pure flushed.2

end SortedFile.Writer

theorem SortedFile.writeList_confined {path : Storage.Path} (writes : region.writes path)
    (kind : Kind) (durable : Bool) (stride : Nat) (fps : List Fingerprint) :
    region.ConfinesTask (writeList path kind durable stride fps)
      fun written => written.path = path :=
  (Writer.create_confined writes kind durable stride).bind fun _ created =>
    (Writer.pushAll_confined created fps).bind fun _ pushed => Writer.finish_confined pushed

end FingerprintSet
