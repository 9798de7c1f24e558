import FingerprintSet.Plan

/-!
# Plans that were computed

What accepted settings and a plan computed from them say about the shape of the table, whatever
the reserve came to.
-/

namespace FingerprintSet

/-- Accepted settings are within the bounds. -/
theorem MemorySettings.validate_ok {settings : MemorySettings}
    (accepted : settings.validate = .ok ()) :
    settings.segmentBits ≤ maxSegmentBits ∧ settings.bucketEntries ≠ 0 ∧
      settings.bucketEntries ≤ maxBucketEntries := by
  rw [validate] at accepted
  split at accepted
  · contradiction
  · split at accepted
    · contradiction
    · rename_i narrow
      split at accepted
      · contradiction
      · rename_i wide
        obtain ⟨some, within⟩ := not_or.mp wide
        exact ⟨UInt32.not_lt.mp narrow, some, UInt64.not_lt.mp within⟩

namespace Plan

theorem segmentCount_pos (plan : Plan) : 0 < plan.segmentCount :=
  Nat.pow_pos Nat.zero_lt_two

theorem largestFitting_pos (fits : Nat → Bool) (exponent : Nat) :
    0 < largestFitting fits exponent := by
  induction exponent with
  | zero => exact Nat.zero_lt_one
  | succ exponent ih =>
      rw [largestFitting]
      split
      · exact Nat.pow_pos Nat.zero_lt_two
      · exact ih

/-- What holds of every computed plan. -/
structure Shaped (plan : Plan) : Prop where
  bits : plan.segmentBits ≤ 12
  wide : 0 < plan.bucketEntries
  narrow : plan.bucketEntries ≤ 255
  buckets : 0 < plan.bucketsPerSegment

/-- No set has more segments. -/
theorem Shaped.segmentCount_le {plan : Plan} (shaped : plan.Shaped) : plan.segmentCount ≤ 4096 :=
  Nat.pow_le_pow_right Nat.zero_lt_two shaped.bits

theorem withReserve_shaped {settings : MemorySettings} {reserve : Nat} {plan : Plan}
    (accepted : settings.validate = .ok ()) (computed : withReserve settings reserve = .ok plan) :
    plan.Shaped := by
  obtain ⟨bits, some, within⟩ := MemorySettings.validate_ok accepted
  rw [withReserve] at computed
  dsimp only at computed
  split at computed
  · contradiction
  · split at computed
    · contradiction
    · obtain rfl := Except.ok.inj computed
      exact
        { bits := UInt32.le_iff_toNat_le.mp bits
          wide := Nat.pos_of_ne_zero fun zero => some (UInt64.toNat_inj.mp zero)
          narrow := UInt64.le_iff_toNat_le.mp within
          buckets := largestFitting_pos _ _ }

/-- Settings that a plan was computed for are accepted. -/
theorem withReserve_of_compute {settings : MemorySettings} {plan : Plan}
    (computed : compute settings = .ok plan) :
    settings.validate = .ok () ∧ withReserve settings (reserveFor settings) = .ok plan := by
  rw [compute] at computed
  split at computed
  · contradiction
  · rename_i accepted
    exact ⟨accepted, computed⟩

theorem compute_shaped {settings : MemorySettings} {plan : Plan}
    (computed : compute settings = .ok plan) : plan.Shaped :=
  withReserve_shaped (withReserve_of_compute computed).1 (withReserve_of_compute computed).2

end Plan

end FingerprintSet
