import FingerprintSet.SortedFile.Reader
import FingerprintSet.Total

/-!
# Sorted merges

A merge turns ascending sources into one stream without repetitions.  Each source stands in a
lane with the value it gave last; the lane with the least value is next, and of equal values
the one from the earlier source.  A lane's source is asked for its next value before the lane's
own is given, so an error at the end of a source, such as a wrong checksum, comes before the
source's last value.  An error ends the merge.
-/

namespace FingerprintSet

open Storage (Volume)

/-- An ascending source of fingerprints. -/
inductive Source
  /-- Fingerprints already in memory. -/
  | memory (fps : List Fingerprint)
  /-- An open fingerprint file. -/
  | file (reader : SortedFile.Reader)
  deriving Inhabited

namespace Source

/-- Ask for the next value. -/
def next : Source → StateM Volume (Source × Pull)
  | memory [] => pure (memory [], .ended)
  | memory (fp :: rest) => pure (memory rest, .value fp)
  | file reader => do
      let (reader, pull) ← reader.next
      pure (file reader, pull)

/-- Values that a source can still give. -/
def remaining : Source → Nat
  | memory fps => fps.length
  | file reader => reader.remaining

end Source

/-- A source and the value it gave last. -/
structure Lane where
  head : Fingerprint
  /-- The place of the source among all sources. -/
  rank : Nat
  source : Source
  deriving Inhabited

/-- Whether a lane goes before another one. -/
def Lane.before (first second : Lane) : Bool :=
  first.head < second.head || (first.head == second.head && first.rank < second.rank)

/-- A merge, by how far it has come. -/
inductive Merge
  /-- No source was asked yet. -/
  | fresh (sources : List Source)
  /-- The lanes in order, and the value given last. -/
  | running (lanes : List Lane) (last : Option Fingerprint)
  /-- An error was given. -/
  | failed
  deriving Inhabited

namespace Merge

/-- Put a lane among lanes in order. -/
def place (lane : Lane) : List Lane → List Lane
  | [] => [lane]
  | other :: rest =>
      if lane.before other then lane :: other :: rest else other :: place lane rest

/-- Ask a source for its next value and put it among the lanes; a source that has ended goes
away. -/
def enter (rank : Nat) (source : Source) (lanes : List Lane) :
    StateM Volume (Except Error (List Lane)) := do
  let (source, pull) ← source.next
  match pull with
  | .value head => pure (.ok (place { head, rank, source } lanes))
  | .failed error => pure (.error error)
  | .ended => pure (.ok lanes)

/-- Ask every source for its first value. -/
def start (rank : Nat) (lanes : List Lane) :
    List Source → StateM Volume (Except Error (List Lane))
  | [] => pure (.ok lanes)
  | source :: rest => do
      match ← enter rank source lanes with
      | .ok lanes => start (rank + 1) lanes rest
      | .error error => pure (.error error)

/-- Values that the lanes can still give. -/
def laneValues (lanes : List Lane) : Nat :=
  total (fun lane => lane.source.remaining + 1) lanes

/-- Values that a merge can still give, repetitions included. -/
def remaining : Merge → Nat
  | fresh sources => total Source.remaining sources
  | running lanes _ => laneValues lanes
  | failed => 0

/-- Give the least value that differs from the last one.  At most `bound` values are looked
at. -/
def advance (last : Option Fingerprint) : Nat → List Lane → StateM Volume (Merge × Pull)
  | _, [] => pure (running [] last, .ended)
  | 0, lanes => pure (running lanes last, .ended)
  | bound + 1, lane :: rest => do
      match ← enter lane.rank lane.source rest with
      | .error error => pure (failed, .failed error)
      | .ok lanes =>
          if last = some lane.head then
            advance last bound lanes
          else
            pure (running lanes (some lane.head), .value lane.head)

/-- Ask for the next value. -/
def next : Merge → StateM Volume (Merge × Pull)
  | failed => pure (failed, .ended)
  | running lanes last => advance last (laneValues lanes) lanes
  | fresh sources => do
      match ← start 0 [] sources with
      | .error error => pure (failed, .failed error)
      | .ok lanes => advance none (laneValues lanes) lanes

/-- Give all values to `sink` one after the other.  At most `bound` values are given. -/
def foldTo {σ : Type} (sink : σ → Fingerprint → Task σ) (giveUp : σ → Task Unit) :
    Nat → Merge → σ → Task σ
  | 0, _, state => pure state
  | bound + 1, merge, state => do
      let (merge, pull) ← (merge.next : StateM Volume (Merge × Pull))
      match pull with
      | .ended => pure state
      | .failed error => do
          giveUp state
          throw error
      | .value fp => do
          let state ← sink state fp
          foldTo sink giveUp bound merge state

/-- Give all values to `sink` one after the other.  If the merge fails, what became of the
state is given up. -/
def fold {σ : Type} (merge : Merge) (sink : σ → Fingerprint → Task σ) (giveUp : σ → Task Unit)
    (state : σ) : Task σ :=
  foldTo sink giveUp (merge.remaining + 1) merge state

end Merge

end FingerprintSet
