import FingerprintSet.Storage.Tree
import FingerprintSet.Router
import FingerprintSet.Task
import FingerprintSet.Plan
import FingerprintSet.BucketTable
import FingerprintSet.SortedFile.Writer
import FingerprintSet.Merge
import FingerprintSet.PageStore.Compaction
import FingerprintSet.Segment.Snapshot
import FingerprintSet.Json.Document
import FingerprintSet.Checkpoint.Keeper
import FingerprintSet.OpenSet
import FingerprintSet.Settings.Written
import FingerprintSet.Proofs.Storage.Frame
import FingerprintSet.Proofs.Storage.Outcome
import FingerprintSet.Proofs.Storage.Steps
import FingerprintSet.Proofs.Storage.Directories
import FingerprintSet.Proofs.Storage.Keeping
import FingerprintSet.Proofs.Storage.Renaming
import FingerprintSet.Proofs.SortedFile.Layout
import FingerprintSet.Proofs.SortedFile.Writing
import FingerprintSet.Proofs.SortedFile.Reading
import FingerprintSet.Proofs.Ascending
import FingerprintSet.Proofs.Merge
import FingerprintSet.Proofs.Page
import FingerprintSet.Proofs.PageStore.Basic
import FingerprintSet.Proofs.PageStore.Compaction
import FingerprintSet.Proofs.PageStore.Jobs
import FingerprintSet.Proofs.BucketTable
import FingerprintSet.Proofs.Segment.Basic
import FingerprintSet.Proofs.Segment.Whole
import FingerprintSet.Proofs.Segment.Held
import FingerprintSet.Proofs.Segment.Traffic
import FingerprintSet.Proofs.Segment.Schedule
import FingerprintSet.Proofs.Segment.Failing
import FingerprintSet.Proofs.Json.Token
import FingerprintSet.Proofs.Json.Document
import FingerprintSet.Proofs.Json.Text
import FingerprintSet.Proofs.Checkpoint.Manifest
import FingerprintSet.Proofs.Checkpoint.Naming
import FingerprintSet.Proofs.Checkpoint.Generation
import FingerprintSet.Proofs.Checkpoint.Restoring
import FingerprintSet.Proofs.Checkpoint.Keeping
import FingerprintSet.Proofs.Checkpoint.Staging
import FingerprintSet.Proofs.Checkpoint.History
import FingerprintSet.Proofs.BoundedSet.Contents
import FingerprintSet.Proofs.Checkpoint.Around
import FingerprintSet.Proofs.Plan
import FingerprintSet.Proofs.Distance
import FingerprintSet.Proofs.BoundedSet.Checkpoint
import FingerprintSet.Proofs.BoundedSet.Distance
import FingerprintSet.Proofs.BoundedSet.Opening
import FingerprintSet.Proofs.ResidentSet
import FingerprintSet.Proofs.OpenSet.Basic
import FingerprintSet.Proofs.OpenSet.Session
import FingerprintSet.Proofs.OpenSet.Lives
import FingerprintSet.Proofs.Fnv
import FingerprintSet.Proofs.Storage.Deciding
import FingerprintSet.Proofs.SortedFile.Damage
import FingerprintSet.Proofs.Checkpoint.Damage
import FingerprintSet.Proofs.Checkpoint.Recovery
import FingerprintSet.Proofs.OpenSet.Reopening
import FingerprintSet.Proofs.BoundedSet.Amid
import FingerprintSet.Proofs.OpenSet.Traffic
import FingerprintSet.Proofs.Plan.Budget
import FingerprintSet.Proofs.Plan.Growth
import FingerprintSet.Proofs.Segment.Readers
import FingerprintSet.Proofs.SortedFile.RoundTrip
import FingerprintSet.Proofs.OpenSet.Scene
import FingerprintSet.Proofs.BoundedSet.Limits
import FingerprintSet.Proofs.BoundedSet.Working
import FingerprintSet.Proofs.Storage.Region
import FingerprintSet.Proofs.Storage.Confining
import FingerprintSet.Proofs.Storage.Confined
import FingerprintSet.Proofs.SortedFile.Confined
import FingerprintSet.Proofs.Segment.Confined
import FingerprintSet.Proofs.Checkpoint.Belonging
import FingerprintSet.Proofs.Checkpoint.Confined
import FingerprintSet.Proofs.BoundedSet.Confined
import FingerprintSet.Proofs.OpenSet.Confined
import FingerprintSet.Proofs.OpenSet.Neighbours
import FingerprintSet.Proofs.Storage.Watching
import FingerprintSet.Proofs.BoundedSet.Watching
import FingerprintSet.Proofs.OpenSet.Distance
import FingerprintSet.Proofs.Checkpoint.Canonical
import FingerprintSet.Proofs.OpenSet.Origin
import FingerprintSet.Proofs.OpenSet.Canonical
import FingerprintSet.Proofs.Merge.Failing
import FingerprintSet.Proofs.PageStore.Indexes
import FingerprintSet.Proofs.Segment.Merges
import FingerprintSet.Proofs.BoundedSet.Merges
import FingerprintSet.Proofs.PageStore.Tiers
import FingerprintSet.Proofs.PageStore.Copies
import FingerprintSet.Proofs.PageStore.Handles
import FingerprintSet.Proofs.PageStore.Files
import FingerprintSet.Proofs.BucketTable.Queues
import FingerprintSet.Proofs.Fnv.Mix
