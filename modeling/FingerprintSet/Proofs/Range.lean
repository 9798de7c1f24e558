import FingerprintSet.Total
import Mathlib.Data.List.Basic

/-!
# Words and slices

The steps that a machine takes on 64-bit words and on slices.  A step has no result where a number
leaves the words, goes below zero or is divided by zero, and where a position is not in the slice.
-/

namespace FingerprintSet

namespace Wordwise

/-- A number, if a word holds it. -/
def word (n : Nat) : Option Nat :=
  if n < UInt64.size then some n else none

/-- The sum of two words. -/
def plus (m n : Nat) : Option Nat :=
  word (m + n)

/-- The product of two words. -/
def times (m n : Nat) : Option Nat :=
  word (m * n)

/-- The difference of two words. -/
def minus (m n : Nat) : Option Nat :=
  if n ≤ m then some (m - n) else none

/-- The quotient of two words. -/
def divided (m n : Nat) : Option Nat :=
  if n = 0 then none else some (m / n)

/-- One, shifted to the left by so many bits. -/
def shifted (bits : Nat) : Option Nat :=
  if bits < 64 then some (Nat.pow 2 bits) else none

/-- A word, shifted to the right by so many bits. -/
def lowered (n bits : Nat) : Option Nat :=
  if bits < 64 then some (n / Nat.pow 2 bits) else none

/-- A number as a byte, if a byte holds it. -/
def byte (n : Nat) : Option UInt8 :=
  if n < UInt8.size then some n.toUInt8 else none

/-- The sum of a count over the items of a list, one after the other. -/
def sum {α : Type} (count : α → Nat) (items : List α) : Option Nat :=
  items.foldlM (fun counted item => plus counted (count item)) 0

/-- The items of an array from a position up to but not with another. -/
def slice {α : Type} (items : Array α) (start stop : Nat) : Option (List α) :=
  if start ≤ stop ∧ stop ≤ items.size then some (items.extract start stop).toList else none

/-- The array with another item at a position. -/
def replaced {α : Type} (items : Array α) (place : Nat) (item : α) : Option (Array α) :=
  if place < items.size then some (items.setIfInBounds place item) else none

theorem plus_eq {m n : Nat} (small : m + n < UInt64.size) : plus m n = some (m + n) :=
  if_pos small

theorem times_eq {m n : Nat} (small : m * n < UInt64.size) : times m n = some (m * n) :=
  if_pos small

theorem minus_eq {m n : Nat} (below : n ≤ m) : minus m n = some (m - n) :=
  if_pos below

theorem divided_eq {m n : Nat} (positive : 0 < n) : divided m n = some (m / n) :=
  if_neg (Nat.ne_of_gt positive)

theorem shifted_eq {bits : Nat} (few : bits < 64) : shifted bits = some (Nat.pow 2 bits) :=
  if_pos few

theorem lowered_eq {bits : Nat} (n : Nat) (few : bits < 64) :
    lowered n bits = some (n / Nat.pow 2 bits) :=
  if_pos few

theorem byte_eq {n : Nat} (small : n < UInt8.size) : byte n = some n.toUInt8 :=
  if_pos small

theorem slice_eq {α : Type} {items : Array α} {start stop : Nat} (ordered : start ≤ stop)
    (inside : stop ≤ items.size) : slice items start stop = some (items.extract start stop).toList :=
  if_pos ⟨ordered, inside⟩

theorem replaced_eq {α : Type} {items : Array α} {place : Nat} (inside : place < items.size)
    (item : α) : replaced items place item = some (items.setIfInBounds place item) :=
  if_pos inside

/-- Where the whole sum is a word, so is every sum on the way. -/
theorem sum_eq {α : Type} {count : α → Nat} {items : List α}
    (small : total count items < UInt64.size) : sum count items = some (total count items) := by
  suffices from_ : ∀ counted, counted + total count items < UInt64.size →
      items.foldlM (fun counted item => plus counted (count item)) counted =
        some (counted + total count items) by
    rw [sum, from_ 0 (by rwa [Nat.zero_add]), Nat.zero_add]
  intro counted fits
  clear small
  induction items generalizing counted with
  | nil => rfl
  | cons item items ih =>
      rw [total_cons, ← Nat.add_assoc] at fits ⊢
      rw [List.foldlM_cons, plus_eq (Nat.lt_of_le_of_lt (Nat.le_add_right _ _) fits)]
      exact ih _ fits

end Wordwise

end FingerprintSet
