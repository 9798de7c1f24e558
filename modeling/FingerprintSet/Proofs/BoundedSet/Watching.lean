import FingerprintSet.BoundedSet
import FingerprintSet.Proofs.Storage.Watching

/-!
# Going through a set only watches

Snapshots open pages and read them, so going through a set with a sink that keeps off the volume
leaves the volume as it is but for the time that passes.
-/

namespace FingerprintSet

open Storage Volume

variable {σ : Type}

namespace SortedFile.Reader

theorem openAt_watches (path : Storage.Path) (kind : Kind) : Watches (openAt path kind) := by
  refine (openFile_watches path).adapt.bindTask fun handle => ?_
  refine (readAt_watches handle 0 headerLength).adapt.bindTask fun bytes => ?_
  refine Watches.bindTask (.pure _) fun header => ?_
  refine (fileLength_watches handle).adapt.bindTask fun length => ?_
  split <;> exact .pure _

theorem fill_watches (reader : Reader) : Watches reader.fill := by
  rw [fill]
  split
  · exact .pure _
  · have refills : Watches reader.refill :=
      (readAt_watches reader.handle reader.position _).bindTask fun _ => .pure _
    refine refills.bindTask fun filled => ?_
    split <;> exact .pure _

theorem next_watches (reader : Reader) : Watches reader.next := by
  rw [next]
  split
  · exact .pure _
  · split
    · dsimp only
      split <;> exact .pure _
    · exact Watches.bind (fill_watches reader) fun
        | .ok _ => .pure _
        | .error _ => .pure _

end SortedFile.Reader

theorem Source.next_watches : (source : Source) → Watches source.next
  | memory [] => .pure _
  | memory (_ :: _) => .pure _
  | file reader => (SortedFile.Reader.next_watches reader).bind fun _ => .pure _

namespace Merge

theorem enter_watches (rank : Nat) (source : Source) (lanes : List Lane) :
    Watches (enter rank source lanes) :=
  source.next_watches.bind fun
    | (_, .value _) => .pure _
    | (_, .failed _) => .pure _
    | (_, .ended) => .pure _

theorem start_watches (rank : Nat) (lanes : List Lane) (sources : List Source) :
    Watches (start rank lanes sources) := by
  induction sources generalizing rank lanes with
  | nil => exact .pure _
  | cons source sources ih =>
      exact (enter_watches rank source lanes).bind fun
        | .ok lanes => ih (rank + 1) lanes
        | .error _ => .pure _

theorem advance_watches (last : Option Fingerprint) (bound : Nat) (lanes : List Lane) :
    Watches (advance last bound lanes) := by
  induction bound generalizing lanes with
  | zero => cases lanes <;> exact .pure _
  | succ bound ih =>
      cases lanes with
      | nil => exact .pure _
      | cons lane lanes =>
          refine (enter_watches lane.rank lane.source lanes).bind fun entered => ?_
          cases entered with
          | error error => exact .pure _
          | ok lanes =>
              dsimp only
              split
              · exact ih lanes
              · exact .pure _

theorem next_watches : (merge : Merge) → Watches merge.next
  | failed => .pure _
  | running lanes last => advance_watches last (laneValues lanes) lanes
  | fresh sources => (start_watches 0 [] sources).bind fun
      | .error _ => .pure _
      | .ok lanes => advance_watches none (laneValues lanes) lanes

theorem foldTo_watches {sink : σ → Fingerprint → Task σ} {giveUp : σ → Task Unit}
    (sinks : ∀ state fp, Watches (sink state fp)) (givesUp : ∀ state, Watches (giveUp state))
    (bound : Nat) (merge : Merge) (state : σ) : Watches (foldTo sink giveUp bound merge state) := by
  induction bound generalizing merge state with
  | zero => exact .pure _
  | succ bound ih =>
      exact merge.next_watches.liftThen fun
        | (merge, .value fp) => (sinks state fp).bindTask fun state => ih merge state
        | (_, .failed _) => (givesUp state).bindTask fun _ => .pure _
        | (_, .ended) => .pure _

end Merge

theorem PageStore.openPages_watches (pages : List Page) : Watches (openPages pages) := by
  induction pages with
  | nil => exact .pure _
  | cons page pages ih =>
      exact (SortedFile.Reader.openAt_watches page.path .page).bindTask fun _ =>
        ih.bindTask fun _ => .pure _

namespace Segment

theorem takeSnapshot_watches : WatchesKeeping takeSnapshot :=
  .getThen fun _ => (WatchesKeeping.lift (PageStore.openPages_watches _)).bind fun _ =>
    .getThen fun _ => (WatchesKeeping.modifying _).bind fun _ => .pure _

theorem scan_watches {sink : σ → Fingerprint → Task σ} {giveUp : σ → Task Unit}
    (sinks : ∀ state fp, Watches (sink state fp)) (givesUp : ∀ state, Watches (giveUp state))
    (state : σ) : WatchesKeeping (scan sink giveUp state) := by
  refine (takeSnapshot_watches.tryCatch fun error => ?_).bind fun snapshot => ?_
  · exact (WatchesKeeping.lift (givesUp state)).bind fun _ => .throw error
  · have folds := Merge.foldTo_watches sinks givesUp (snapshot.remaining + 1) snapshot state
    exact (WatchesKeeping.lift folds).outcome.bind fun outcome =>
      (WatchesKeeping.modifying _).bind fun _ => .ofExcept outcome

end Segment

namespace BoundedSet

theorem observeSegment_watches (distance : LeastDistance) (index : Nat) :
    WatchesKeeping (observeSegment distance index) :=
  .onPart (Segment.scan_watches (fun _ _ => .pure _) (fun _ => .pure _) distance)

theorem leastDistance_watches : WatchesKeeping leastDistance :=
  .getThen fun set =>
    (WatchesKeeping.foldlM observeSegment_watches (List.range set.segments.size) {}).bind
      fun _ => .pure _

end BoundedSet

end FingerprintSet
