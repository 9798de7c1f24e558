import FingerprintSet.Page

/-!
# Open pages

Page files stay open between probes, up to a limit.  When another one is opened at the limit,
the one that was used least recently is closed.
-/

namespace FingerprintSet

open Storage

/-- Open pages, the one used last in front. -/
structure HandleCache where
  capacity : Nat
  entries : List (PageId × Handle)
  deriving DecidableEq, Repr, Inhabited

namespace HandleCache

/-- No open pages. -/
def empty (capacity : Nat) : HandleCache where
  capacity := capacity
  entries := []

/-- Whether the room for so many open pages can be laid out at all. -/
def isRepresentable (capacity : Nat) : Bool :=
  capacity * 8 / 7 ≤ 0x400000000000000

/-- The number of open pages. -/
def size (cache : HandleCache) : Nat :=
  cache.entries.length

/-- The handle of a page. -/
def find? (cache : HandleCache) (id : PageId) : Option Handle :=
  cache.entries.lookup id

/-- Without a page. -/
def erase (cache : HandleCache) (id : PageId) : HandleCache :=
  { cache with entries := cache.entries.filter (·.1 != id) }

/-- With an open page in front. -/
def touch (cache : HandleCache) (id : PageId) (handle : Handle) : HandleCache :=
  { cache with entries := (id, handle) :: (cache.erase id).entries }

/-- With a newly opened page in front; at the limit the page used least recently goes. -/
def insert (cache : HandleCache) (id : PageId) (handle : Handle) : HandleCache :=
  { cache with entries := ((id, handle) :: cache.entries).take cache.capacity }

end HandleCache

end FingerprintSet
