import FingerprintSet.HandleCache
import FingerprintSet.SortedFile.Reader
import FingerprintSet.Text.Digits

/-!
# Page stores

A store holds the evicted fingerprints of one segment as pages in one directory, in the order
in which they were written.  Pages are added and probed here; merging them is a matter of its
own.
-/

namespace FingerprintSet

open Storage

/-- The limits of a store. -/
structure StoreLimits where
  /-- The stride of a new page's index. -/
  stride : Nat
  /-- Whether a page is finished only once it is on the medium. -/
  durable : Bool
  /-- Index entries that all pages may keep together. -/
  indexEntries : Nat
  /-- Page files that may stay open between probes. -/
  openHandles : Nat
  deriving DecidableEq, Repr, Inhabited

/-- The pages of one segment. -/
structure PageStore where
  directory : Path
  /-- The pages, the oldest first. -/
  pages : List Page
  handles : HandleCache
  /-- The number of the next page. -/
  nextId : PageId
  limits : StoreLimits
  /-- Entries of all pages. -/
  entries : Nat
  /-- Merges whose result was taken in. -/
  compactions : Nat
  deriving DecidableEq, Repr, Inhabited

/-- Remove a file unless it is gone already. -/
def removeIfPresent (path : Path) : Task Unit :=
  (Activity.removing path).run do
    tryCatch (removeFile path) fun failure =>
      if failure = .refused .notFound then pure () else throw failure

namespace PageStore

/-- Bytes that can be set aside for one block. -/
def maxBlockBytes : Nat := 0x7fffffffffffffff

/-- An empty store in a directory, which is created if it is not there. -/
def create (directory : Path) (limits : StoreLimits) : Task PageStore := do
  (Activity.creatingOverflow directory).run (makeDirectories directory)
  if !HandleCache.isRepresentable limits.openHandles then
    throw (.outOfRange .openPages)
  else if maxBlockBytes < limits.stride * SortedFile.entryLength then
    throw (.outOfRange .blockBytes)
  else
    pure
      { directory, limits
        pages := []
        handles := .empty limits.openHandles
        nextId := 0
        entries := 0
        compactions := 0 }

/-- The file of a page. -/
def pagePath (store : PageStore) (id : PageId) : Path :=
  store.directory.child s!"page-{Text.zeroPadded 8 id}.fpp"

/-- Index entries that all pages keep together. -/
def indexEntries (store : PageStore) : Nat :=
  Page.indexEntries store.pages

/-- The number of pages. -/
def pageCount (store : PageStore) : Nat :=
  store.pages.length

/-- The number of page files open. -/
def openHandles (store : PageStore) : Nat :=
  store.handles.size

/-- The store with a page behind the others. -/
def add (store : PageStore) (page : Page) : PageStore :=
  { store with
    pages := Page.withinBudget store.limits.indexEntries (store.pages ++ [page])
    entries := store.entries + page.count }

/-- Give out a page number.  It is used up even if no page comes of it. -/
def allocate : Keeping PageStore PageId :=
  modifyGet fun store => (store.nextId, { store with nextId := store.nextId + 1 })

/-- Write strictly ascending fingerprints as a new page. -/
def append (fps : List Fingerprint) : Keeping PageStore Unit := do
  if fps.isEmpty then
    pure ()
  else
    let id ← allocate
    let store ← get
    let limits := store.limits
    let written ← SortedFile.writeList (store.pagePath id) .page limits.durable limits.stride fps
    modify (·.add (Page.ofWritten id limits.stride written))

/-- The handle of a page, which is opened if it is not open. -/
def handleOf (page : Page) : Keeping PageStore Handle := do
  match (← get).handles.find? page.id with
  | some handle =>
      modify fun store => { store with handles := store.handles.touch page.id handle }
      pure handle
  | none =>
      let handle ← (Activity.openingPage page.path).run (openFile page.path)
      modify fun store => { store with handles := store.handles.insert page.id handle }
      pure handle

/-- Whether a page holds a fingerprint. -/
def probePage (page : Page) (fp : Fingerprint) : Keeping PageStore Bool := do
  match page.locate fp with
  | .absent => pure false
  | .present => pure true
  | .block start length =>
      let handle ← handleOf page
      let block ← (Activity.probingPage page.path).run (Page.readBlock handle start length)
      pure (Page.searchBlock block fp)

/-- Whether any of the pages holds a fingerprint, asked in order. -/
def probePages (fp : Fingerprint) : List Page → Keeping PageStore Bool
  | [] => pure false
  | page :: rest => do
      if ← probePage page fp then pure true else probePages fp rest

/-- Whether any page holds a fingerprint.  The newest page is asked first. -/
def probe (fp : Fingerprint) : Keeping PageStore Bool := do
  probePages fp (← get).pages.reverse

/-- Open a reader on each of the pages. -/
def openPages : List Page → Task (List SortedFile.Reader)
  | [] => pure []
  | page :: rest => do
      let reader ← SortedFile.Reader.openAt page.path .page
      let readers ← openPages rest
      pure (reader :: readers)

end PageStore

end FingerprintSet
