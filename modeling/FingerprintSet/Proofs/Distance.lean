import FingerprintSet.Distance
import FingerprintSet.Proofs.Ascending
import Mathlib.Data.List.Induction

/-!
# Distances in ascending lists

Taking in an ascending list never fails, so a stream that was taken in up to some place can be
taken in further.
-/

namespace FingerprintSet.LeastDistance

/-- Take in all values of a list. -/
def observeAll (fps : List Fingerprint) : Except Error LeastDistance :=
  fps.foldlM observe {}

variable {fps done rest : List Fingerprint} {fp : Fingerprint} {state next : LeastDistance}

theorem observe_last (observed : state.observe fp = .ok next) : next.last = some fp := by
  rw [observe] at observed
  split at observed
  · obtain rfl := Except.ok.inj observed
    rfl
  · split at observed
    · contradiction
    · obtain rfl := Except.ok.inj observed
      rfl

theorem observeAll_snoc (observed : observeAll done = .ok state) :
    observeAll (done ++ [fp]) = state.observe fp := by
  have unfolded : observeAll (done ++ [fp]) = (observeAll done).bind fun state =>
      (state.observe fp).bind Except.ok := by
    rw [observeAll, List.foldlM_append]
    rfl
  rw [unfolded, observed]
  show (state.observe fp).bind Except.ok = _
  cases state.observe fp <;> rfl

/-- What was taken in last is the last of the values. -/
theorem observeAll_last (observed : observeAll fps = .ok state) : state.last = fps.getLast? := by
  rcases List.eq_nil_or_concat fps with rfl | ⟨done, fp, rfl⟩
  · obtain rfl := Except.ok.inj observed
    rfl
  · rw [List.concat_eq_append] at observed ⊢
    rw [List.getLast?_concat]
    cases first : observeAll done with
    | ok state => exact observe_last ((observeAll_snoc first).symm.trans observed)
    | error error =>
        have fails : observeAll (done ++ [fp]) = .error error := by
          rw [observeAll] at first
          rw [observeAll, List.foldlM_append, first]
          rfl
        rw [fails] at observed
        contradiction

/-- The next value of an ascending list can be taken in. -/
theorem observe_next (ascending : Ascending (done ++ fp :: rest))
    (observed : observeAll done = .ok state) : ∃ next, state.observe fp = .ok next := by
  rw [observe, observeAll_last observed]
  cases latest : done.getLast? with
  | none => exact ⟨_, rfl⟩
  | some last =>
      obtain ⟨earlier, rfl⟩ := List.getLast?_eq_some_iff.mp latest
      have below : last < fp :=
        (List.pairwise_append.mp ascending).2.2 last (by simp) fp List.mem_cons_self
      dsimp only
      rw [if_neg (UInt64.lt_asymm below)]
      exact ⟨_, rfl⟩

/-- An ascending list can be taken in. -/
theorem observeAll_ok (ascending : Ascending fps) : ∃ state, observeAll fps = .ok state := by
  suffices all : ∀ rest done, done ++ rest = fps → (∃ state, observeAll done = .ok state) →
      ∃ state, observeAll fps = .ok state from all fps [] rfl ⟨{}, rfl⟩
  intro rest
  induction rest with
  | nil =>
      rintro done rfl observed
      rw [List.append_nil]
      exact observed
  | cons fp rest ih =>
      rintro done rfl ⟨state, observed⟩
      obtain ⟨next, taken⟩ := observe_next ascending observed
      exact ih (done ++ [fp]) (by simp) ⟨next, (observeAll_snoc observed).trans taken⟩

/-! ## The least gap -/

/-- How far two fingerprints lie apart. -/
def gap (first second : Fingerprint) : Nat :=
  ((first.toNat : Int) - second.toNat).natAbs

/-- The least gap between two different fingerprints of some, or the greatest word if there are
fewer than two of them. -/
def IsLeastGap (fps : List Fingerprint) (least : UInt64) : Prop :=
  (∀ a ∈ fps, ∀ b ∈ fps, a = b) ∧ least = 0xffffffffffffffff ∨
    (∃ a ∈ fps, ∃ b ∈ fps, a ≠ b ∧ gap a b = least.toNat) ∧
      ∀ a ∈ fps, ∀ b ∈ fps, a ≠ b → least.toNat ≤ gap a b

/-- Only which fingerprints there are matters. -/
theorem IsLeastGap.congr {other : List Fingerprint} {least : UInt64} (is : IsLeastGap fps least)
    (same : ∀ fp, fp ∈ other ↔ fp ∈ fps) : IsLeastGap other least := by
  simpa only [IsLeastGap, same] using is

/-- What is known of the gaps of an ascending list. -/
def Knows (fps : List Fingerprint) : Option UInt64 → Prop
  | none => fps.length ≤ 1
  | some least => (∃ a ∈ fps, ∃ b ∈ fps, a < b ∧ b.toNat - a.toNat = least.toNat) ∧
      ∀ a ∈ fps, ∀ b ∈ fps, a < b → least.toNat ≤ b.toNat - a.toNat

theorem lesser_some (distance other : UInt64) :
    lesser distance (some other) = if other ≤ distance then other else distance :=
  rfl

theorem lesser_le (distance : UInt64) (least : Option UInt64) :
    (lesser distance least).toNat ≤ distance.toNat ∧
      ∀ other, least = some other → (lesser distance least).toNat ≤ other.toNat := by
  cases least with
  | none => exact ⟨Nat.le_refl _, fun _ none => nomatch none⟩
  | some other =>
      rw [lesser_some]
      split
      · rename_i below
        refine ⟨UInt64.le_iff_toNat_le.mp below, ?_⟩
        rintro _ ⟨⟩
        exact Nat.le_refl _
      · rename_i above
        refine ⟨Nat.le_refl _, ?_⟩
        rintro _ ⟨⟩
        exact Nat.le_of_not_le fun below => above (UInt64.le_iff_toNat_le.mpr below)

theorem lesser_eq (distance : UInt64) (least : Option UInt64) :
    lesser distance least = distance ∨ least = some (lesser distance least) := by
  cases least with
  | none => exact Or.inl rfl
  | some other =>
      rw [lesser_some]
      split
      · exact Or.inr rfl
      · exact Or.inl rfl

/-- Of the gaps to one more value on top only that to the value before matters. -/
theorem Knows.snoc {last : Fingerprint} {least : Option UInt64} (knows : Knows done least)
    (ascending : Ascending (done ++ [fp])) (latest : done.getLast? = some last) :
    Knows (done ++ [fp]) (some (lesser (fp - last) least)) := by
  obtain ⟨earlier, rfl⟩ := List.getLast?_eq_some_iff.mp latest
  obtain ⟨front, -, below⟩ := List.pairwise_append.mp ascending
  have top {a : Fingerprint} (mem : a ∈ earlier ++ [last]) : a < fp :=
    below a mem fp (List.mem_singleton_self fp)
  have upTo {a : Fingerprint} (mem : a ∈ earlier ++ [last]) : a.toNat ≤ last.toNat := by
    rcases List.mem_append.mp mem with mem | mem
    · have before := (List.pairwise_append.mp front).2.2 a mem last (List.mem_singleton_self last)
      exact Nat.le_of_lt (UInt64.lt_iff_toNat_lt.mp before)
    · exact Nat.le_of_eq (congrArg UInt64.toNat (List.mem_singleton.mp mem))
  have lastMem : last ∈ earlier ++ [last] := List.mem_append_right _ (List.mem_singleton_self last)
  have distance : (fp - last).toNat = fp.toNat - last.toNat :=
    UInt64.toNat_sub_of_le _ _ (UInt64.le_of_lt (top lastMem))
  obtain ⟨near, other⟩ := lesser_le (fp - last) least
  constructor
  · rcases lesser_eq (fp - last) least with new | old
    · exact ⟨last, List.mem_append_left _ lastMem, fp, by simp, top lastMem, by rw [new, distance]⟩
    · rw [old] at knows
      obtain ⟨⟨a, aMem, b, bMem, ordered, apart⟩, -⟩ := knows
      exact ⟨a, List.mem_append_left _ aMem, b, List.mem_append_left _ bMem, ordered, apart⟩
  · intro a aMem b bMem ordered
    have aOld : a ∈ earlier ++ [last] := by
      rcases List.mem_append.mp aMem with old | new
      · exact old
      · obtain rfl := List.mem_singleton.mp new
        rcases List.mem_append.mp bMem with old | same
        · exact absurd (UInt64.lt_trans ordered (top old)) (UInt64.lt_irrefl a)
        · exact absurd (List.mem_singleton.mp same ▸ ordered) (UInt64.lt_irrefl a)
    rcases List.mem_append.mp bMem with bOld | bNew
    · cases least with
      | none =>
          have one : earlier = [] := List.length_eq_zero_iff.mp (by simpa [Knows] using knows)
          subst one
          rw [List.mem_singleton.mp aOld, List.mem_singleton.mp bOld] at ordered
          exact absurd ordered (UInt64.lt_irrefl last)
      | some least => exact Nat.le_trans (other least rfl) (knows.2 a aOld b bOld ordered)
    · obtain rfl := List.mem_singleton.mp bNew
      have before := upTo aOld
      omega

theorem observeAll_knows (ascending : Ascending fps) (observed : observeAll fps = .ok state) :
    Knows fps state.least := by
  induction fps using List.reverseRecOn generalizing state with
  | nil =>
      obtain rfl := Except.ok.inj observed
      exact Nat.zero_le 1
  | append_singleton done fp ih =>
      have front : Ascending done := (List.pairwise_append.mp ascending).1
      obtain ⟨before, taken⟩ := observeAll_ok front
      have knows := ih front taken
      rw [observeAll_snoc taken, observe, observeAll_last taken] at observed
      cases latest : done.getLast? with
      | none =>
          obtain rfl := List.getLast?_eq_none_iff.mp latest
          obtain rfl := Except.ok.inj taken
          obtain rfl := Except.ok.inj observed
          exact Nat.le_refl 1
      | some last =>
          rw [latest] at observed
          dsimp only at observed
          split at observed
          · contradiction
          · obtain rfl := Except.ok.inj observed
            exact knows.snoc ascending latest

/-- Going through an ascending list finds its least gap. -/
theorem isLeastGap_of_observeAll (ascending : Ascending fps)
    (observed : observeAll fps = .ok state) : IsLeastGap fps state.result := by
  have knows := observeAll_knows ascending observed
  have apart {a b : Fingerprint} (ordered : a < b) : gap a b = b.toNat - a.toNat := by
    have below := UInt64.lt_iff_toNat_lt.mp ordered
    rw [gap]
    omega
  have swap (a b : Fingerprint) : gap a b = gap b a := by
    rw [gap, gap]
    omega
  rw [result]
  cases found : state.least with
  | none =>
      rw [found] at knows
      refine Or.inl ⟨fun a aMem b bMem => ?_, rfl⟩
      obtain ⟨first, rfl⟩ | rfl : (∃ first, fps = [first]) ∨ fps = [] := by
        rcases fps with _ | ⟨first, _ | ⟨second, rest⟩⟩
        · exact Or.inr rfl
        · exact Or.inl ⟨first, rfl⟩
        · exact absurd knows (by simp [Knows])
      · rw [List.mem_singleton.mp aMem, List.mem_singleton.mp bMem]
      · exact absurd aMem List.not_mem_nil
  | some least =>
      rw [found] at knows
      obtain ⟨⟨a, aMem, b, bMem, ordered, same⟩, every⟩ := knows
      refine Or.inr ⟨⟨a, aMem, b, bMem, UInt64.ne_of_lt ordered, (apart ordered).trans same⟩, ?_⟩
      intro a aMem b bMem different
      rcases UInt64.lt_or_lt_of_ne different with ordered | ordered
      · exact apart ordered ▸ every a aMem b bMem ordered
      · rw [swap]
        exact apart ordered ▸ every b bMem a aMem ordered

end FingerprintSet.LeastDistance
