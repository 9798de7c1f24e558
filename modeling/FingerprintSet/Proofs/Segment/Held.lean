import FingerprintSet.Proofs.Segment.Basic

/-!
# What a segment and a volume hold together

The lists that page numbers stand for are a means of proof.  What a segment holds can be read
off: from its table, from the pending set and from the files of its pages.  For a sound segment
this comes to the same.
-/

namespace FingerprintSet

open Storage Volume

/-- The entries in the file of a page. -/
def Page.stored (volume : Volume) (page : Page) : List Fingerprint :=
  match volume.binding? page.path with
  | some (.file id) => SortedFile.entriesIn (volume.read id)
  | _ => []

theorem Page.stored_eq {volume : Volume} {page : Page} {fps : List Fingerprint} {id : FileId}
    (holds : SortedFile.Holds volume page.path .page fps id) : page.stored volume = fps := by
  rw [stored, holds.bound]
  show SortedFile.entriesIn (volume.read id) = fps
  rw [holds.bytes, SortedFile.entriesIn_fileBytes]

namespace PageStore

/-- The entries in the files of all pages. -/
def stored (volume : Volume) (store : PageStore) : List Fingerprint :=
  store.pages.flatMap (·.stored volume)

theorem Sound.stored_eq {volume : Volume} {entries : PageId → List Fingerprint}
    {store : PageStore} (sound : store.Sound volume entries) :
    store.stored volume = store.contents entries := by
  rw [stored, contents, ids, List.flatMap_map, List.flatMap, List.flatMap]
  congr 1
  apply List.map_congr_left
  intro page mem
  obtain ⟨file, holds⟩ := sound.filed page mem
  exact Page.stored_eq holds

end PageStore

namespace Segment

/-- What a segment holds, place by place: in its table, pending and in the files of its pages. -/
def held (volume : Volume) (segment : Segment) : List Fingerprint :=
  segment.table.toList ++ segment.pending.toList ++ segment.store.stored volume

theorem Sound.held_eq {homes : Homes} {volume : Volume} {entries : PageId → List Fingerprint}
    {segment : Segment} (sound : segment.Sound homes volume entries) :
    segment.held volume = segment.all entries := by
  rw [held, all, sound.store.stored_eq]

end Segment

end FingerprintSet
