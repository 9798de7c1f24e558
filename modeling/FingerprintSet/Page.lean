import FingerprintSet.SortedFile.Writer
import FingerprintSet.Total

/-!
# Pages

A page is a finished fingerprint file together with what is known of it in memory: its least
and greatest entry and a sparse index that holds one entry in `stride`.  That is enough to say
of a fingerprint that it is not in the page, that it is, or which block of the page must be
read to tell.  Thinning an index to every other entry doubles the blocks.
-/

namespace FingerprintSet

open Storage

/-- The number of a page; no two pages of a store have the same. -/
abbrev PageId := Nat

/-- Where in a page a fingerprint can be. -/
inductive Whereabouts
  | absent
  | present
  /-- If anywhere, then among `length` entries from `start` on. -/
  | block (start length : Nat)
  deriving DecidableEq, Repr, Inhabited

/-- A page and its index. -/
structure Page where
  id : PageId
  path : Path
  count : Nat
  least : Fingerprint
  greatest : Fingerprint
  stride : Nat
  /-- The entries at positions `0`, `stride`, `2 * stride` and so on. -/
  index : Array Fingerprint
  deriving DecidableEq, Repr, Inhabited

namespace Page

/-- The page that a finished file makes. -/
def ofWritten (id : PageId) (stride : Nat) (written : SortedFile.Written) : Page where
  id := id
  path := written.path
  count := written.count
  least := written.first.getD 0xffffffffffffffff
  greatest := written.last.getD 0
  stride := stride
  index := written.index

/-- The last of `size` positions from `base` on whose entry is not greater than a fingerprint;
`base` itself if there is none. -/
def floorSlot (index : Array Fingerprint) (fp : Fingerprint) (base size : Nat) : Nat :=
  if size ≤ 1 then
    base
  else
    let half := size / 2
    let middle := base + half
    floorSlot index fp (if fp < index.getD middle 0 then base else middle) (size - half)
  termination_by size
  decreasing_by omega

/-- Where in the page a fingerprint can be. -/
def locate (page : Page) (fp : Fingerprint) : Whereabouts :=
  if page.count = 0 ∨ fp < page.least ∨ page.greatest < fp ∨ page.index.isEmpty then
    .absent
  else
    let slot := floorSlot page.index fp 0 page.index.size
    let entry := page.index.getD slot 0
    if entry = fp then
      .present
    else if fp < entry then
      .absent
    else
      let start := slot * page.stride
      .block start (min (page.count - start) page.stride)

/-- The position in the page's file where an entry starts. -/
def entryPosition (position : Nat) : Nat :=
  SortedFile.headerLength + position * SortedFile.entryLength

/-- Read a block of entries. -/
def readBlock (handle : Handle) (start length : Nat) : Access Bytes := do
  let size := length * SortedFile.entryLength
  let bytes ← readAt handle (entryPosition start) size
  if bytes.size < size then throw .endOfFile else pure bytes

/-- Whether the entries from `low` up to but not with `high` of a block hold a fingerprint. -/
def searchBetween (block : Bytes) (fp : Fingerprint) (low high : Nat) : Bool :=
  if low < high then
    let middle := low + (high - low) / 2
    let entry := Word.ofBytesAt block (middle * SortedFile.entryLength)
    if entry = fp then true
    else if entry < fp then searchBetween block fp (middle + 1) high
    else searchBetween block fp low middle
  else
    false
  termination_by high - low
  decreasing_by all_goals omega

/-- Whether a block of ascending entries holds a fingerprint. -/
def searchBlock (block : Bytes) (fp : Fingerprint) : Bool :=
  searchBetween block fp 0 (block.size / SortedFile.entryLength)

/-- Every other entry of a list, the first one included. -/
def everyOther {α : Type} : List α → List α
  | [] => []
  | [a] => [a]
  | a :: _ :: rest => a :: everyOther rest

/-- The page with every other entry of its index. -/
def thin (page : Page) : Page :=
  { page with
    index := (everyOther page.index.toList).toArray
    stride := page.stride * 2 }

/-- The binary digits of a number. -/
def bitLength (n : Nat) : Nat :=
  if n = 0 then 0 else n.log2 + 1

/-- The size class of a page: classes are a factor of four wide. -/
def tier (page : Page) : Nat :=
  bitLength page.count / 2

end Page

/-! ## Index budgets -/

namespace Page

/-- Index entries that pages keep together. -/
def indexEntries (pages : List Page) : Nat :=
  total (·.index.size) pages

/-- The most index entries that any of the pages keeps. -/
def largestIndex (pages : List Page) : Nat :=
  (pages.map (·.index.size)).foldr max 0

/-- Thin the last of the pages whose index has the given size. -/
def thinLast (size : Nat) : List Page → List Page
  | [] => []
  | page :: rest =>
      if rest.any (·.index.size = size) then page :: thinLast size rest
      else if page.index.size = size then page.thin :: rest
      else page :: rest

/-- Thin the largest index until the indexes fit the budget.  An index with one entry is left
alone.  At most `bound` indexes are thinned. -/
def fitIndexes (budget : Nat) : Nat → List Page → List Page
  | 0, pages => pages
  | bound + 1, pages =>
      if indexEntries pages ≤ budget then pages
      else if largestIndex pages ≤ 1 then pages
      else fitIndexes budget bound (thinLast (largestIndex pages) pages)

/-- The pages with indexes that fit the budget, or that have one entry each. -/
def withinBudget (budget : Nat) (pages : List Page) : List Page :=
  fitIndexes budget (indexEntries pages) pages

end Page

end FingerprintSet
