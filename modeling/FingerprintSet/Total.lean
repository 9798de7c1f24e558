/-!
# Totals

A count added up over the items of a list.
-/

namespace FingerprintSet

/-- The sum of a count over the items of a list. -/
def total {α : Type} (count : α → Nat) : List α → Nat
  | [] => 0
  | item :: rest => count item + total count rest

@[simp] theorem total_nil {α : Type} (count : α → Nat) : total count [] = 0 := rfl

@[simp] theorem total_cons {α : Type} (count : α → Nat) (item : α) (rest : List α) :
    total count (item :: rest) = count item + total count rest := rfl

end FingerprintSet
