import FingerprintSet.Proofs.Storage.Frame
import FingerprintSet.Proofs.Storage.Steps

/-!
# What is at a path

What a user of a volume sees: directories, and files with the bytes they hold.  The numbers under
which contents are kept, the clock and the schedule have no part in it.
-/

namespace FingerprintSet.Storage

open Volume

/-- What is at a path: nothing, a directory, or a file with its bytes. -/
def Volume.content? (volume : Volume) (path : Path) : Option (Option Bytes) :=
  (volume.binding? path).map fun
    | .directory => none
    | .file id => some (volume.read id)

/-- What is at one path with all below it is at another path of a later volume. -/
def SameTree (before : Volume) (source : Path) (after : Volume) (target : Path) : Prop :=
  ∀ rest, after.content? (target ++ rest) = before.content? (source ++ rest)

variable {before after : Volume}

/-- Content stays where a binding does, while no file that was there is written to. -/
theorem content?_congr {paths : Path → Prop} (sound : before.Sound)
    (changes : Changes paths NoFile before after) {path other : Path}
    (same : after.binding? other = before.binding? path) :
    after.content? other = before.content? path := by
  rw [content?, content?, same]
  cases bound : before.binding? path with
  | none => rfl
  | some entry =>
      cases entry with
      | directory => rfl
      | file id =>
          exact congrArg (fun bytes => some (some bytes))
            (changes.read_eq id (sound.stored path id bound) fun none => none)

namespace SameTree

variable {middle : Volume} {source target place : Path}

theorem refl (volume : Volume) (path : Path) : SameTree volume path volume path :=
  fun _ => rfl

theorem trans (first : SameTree before source middle place)
    (second : SameTree middle place after target) : SameTree before source after target :=
  fun rest => (second rest).trans (first rest)

/-- Work outside a tree leaves the tree. -/
theorem of_changes {paths : Path → Prop} (sound : before.Sound)
    (changes : Changes paths NoFile before after)
    (outside : ∀ path, Within source path → ¬paths path) : SameTree before source after source :=
  fun rest => content?_congr sound changes
    (changes.entry_eq _ (outside _ (Path.within_append source rest)))

end SameTree

end FingerprintSet.Storage
