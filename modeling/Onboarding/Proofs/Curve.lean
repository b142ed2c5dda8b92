import Onboarding.Proofs.Growth

namespace Onboarding.Backoff

open Number

variable {b : Backoff} {failures : Nat}

/-- The documented wait: `base * multiplier ^ (failures - 1)` milliseconds, but no more than the
cap. -/
def documented (b : Backoff) (failures : Nat) : Rat :=
  min (b.base.millis * b.multiplier.magnitude ^ (failures - 1)) b.cap.millis

/-- Zero is multiplied by a power that a double does not hold. -/
structure Overshoots (b : Backoff) (failures : Nat) : Prop where
  base_eq : b.base.millis = 0
  lt_power : Double.greatest < b.multiplier.magnitude ^ (failures - 1)

theorem growth_eq (h : failures ≤ 2 ^ 31) :
    b.growth failures = b.multiplier.magnitude ^ (failures - 1) := by
  have hmin : min (failures - 1) maxExponent = failures - 1 := by
    rw [maxExponent]
    omega
  rw [growth, hmin]

theorem documented_of_base_eq (h : b.base.millis = 0) (failures : Nat) :
    b.documented failures = 0 := by
  rw [documented, h, Nat.cast_zero, zero_mul]
  exact min_eq_left (Nat.cast_nonneg _)

/-- As long as zero is not multiplied beyond the range, the wait is the documented one. -/
theorem wait_eq_documented (h : failures ≤ 2 ^ 31) (hin : ¬b.Overshoots failures) :
    b.wait failures = b.documented failures := by
  unfold wait
  by_cases hzero : b.base.millis = 0
  · have hpower : b.growth failures ≤ Double.greatest := by
      apply not_lt.1
      intro hlt
      rw [growth_eq h] at hlt
      exact hin ⟨hzero, hlt⟩
    rw [if_pos hzero, if_pos hpower, documented_of_base_eq hzero]
  · rw [if_neg hzero, growth_eq h, documented]

/-- Zero times a power beyond the range is no number, and what is left of it is the cap. -/
theorem wait_of_overshoots (h : failures ≤ 2 ^ 31) (hout : b.Overshoots failures) :
    b.wait failures = b.cap.millis := by
  have hpower : ¬b.growth failures ≤ Double.greatest := by
    rw [growth_eq h, not_le]
    exact hout.lt_power
  rw [wait, if_pos hout.base_eq, if_neg hpower]

theorem wait_le_cap (b : Backoff) (failures : Nat) : b.wait failures ≤ b.cap.millis := by
  have hcap : (0 : Rat) ≤ b.cap.millis := Nat.cast_nonneg _
  unfold wait
  split_ifs
  · exact hcap
  · exact le_rfl
  · exact min_le_right _ _

/-- Sixty-four bits hold every wait, so that it is only cut down to whole milliseconds. -/
theorem IsAccepted.delayWith_eq (h : b.IsAccepted) (failures : Nat) :
    b.delayWith Double.unrounded failures = .ofMillis (b.wait failures).floor.toNat := by
  have hfloor : (b.wait failures).floor.toNat ≤ max64 := by
    have hle : (((b.wait failures).floor : Int) : Rat) ≤ b.cap.millis :=
      (Rat.floor_le _).trans (b.wait_le_cap failures)
    have hle' : (b.wait failures).floor ≤ (b.cap.millis : Int) := by exact_mod_cast hle
    have hcap := h.cap_lt
    have hmax : max64 = 18446744073709551615 := rfl
    omega
  have hnat : (b.millis Double.unrounded failures).toNat max64 = (b.wait failures).floor.toNat := by
    rw [h.millis_eq]
    exact min_eq_left hfloor
  rw [delayWith, hnat]

/-- The wait after some failures is the documented one, as long as the base is not zero or the power
is in the range of doubles. Beyond that the product of zero is no number, and the cap is left. -/
structure FollowsCurve (b : Backoff) (failures : Nat) : Prop where
  documented : ¬b.Overshoots failures →
    b.delayWith Double.unrounded failures = .ofMillis (b.documented failures).floor.toNat
  cap : b.Overshoots failures →
    b.delayWith Double.unrounded failures = .ofMillis b.cap.millis ∧ b.documented failures = 0

/-- With settings that the environment may ask for, the factor is a number of at least one, and the
wait follows the documented curve for as many failures as a power is computed of. -/
theorem delay_follows_curve {env : Environment} {tuning : Tuning}
    (hload : Tuning.load env = .ok tuning) :
    (1 ≤ tuning.backoff.multiplier.magnitude ∧
      tuning.backoff.multiplier.toExtended = .finite tuning.backoff.multiplier.magnitude) ∧
    ∀ failures ≤ 2 ^ 31, tuning.backoff.FollowsCurve failures := by
  have h := Tuning.isAccepted_of_load hload
  refine ⟨⟨h.one_le_magnitude, h.toExtended_multiplier⟩, ?_⟩
  intro failures hcount
  constructor
  · intro hin
    rw [h.delayWith_eq, wait_eq_documented hcount hin]
  · intro hout
    refine ⟨?_, documented_of_base_eq hout.base_eq failures⟩
    have hfloor : ((tuning.backoff.cap.millis : Rat)).floor = (tuning.backoff.cap.millis : Int) :=
      Rat.floor_intCast _
    rw [h.delayWith_eq, wait_of_overshoots hcount hout, hfloor, Int.toNat_natCast]

theorem gentle_wait_is_documented :
    ∃ tuning, Tuning.load gentle = .ok tuning ∧
      tuning.backoff.delayWith Double.unrounded 3 =
        .ofMillis (tuning.backoff.documented 3).floor.toNat := by
  let backoff : Backoff :=
    { base := .ofMillis 250, multiplier := .nearest false (3 / 2), cap := .ofMillis 300000 }
  have hload : Tuning.load gentle = .ok { backoff } := by decide +kernel
  obtain ⟨-, hcurve⟩ := delay_follows_curve hload
  have hbase : ¬backoff.Overshoots 3 := fun hout => absurd hout.base_eq (by decide)
  exact ⟨_, hload, (hcurve 3 (by decide)).documented hbase⟩

def steep : Environment := fun key =>
  if key = "REGISTRY_BACKOFF_MULTIPLIER" then some "1e200"
  else if key = "REGISTRY_BACKOFF_BASE_MS" then some "0"
  else none

/-- A base of zero does not keep a third attempt from waiting for five minutes, in doubles and with
a computation that is not rounded. -/
theorem zero_base_waits :
    ∃ tuning, Tuning.load steep = .ok tuning ∧ tuning.backoff.base = .zero ∧
      tuning.backoff.documented 3 = 0 ∧
      tuning.backoff.delay 3 = .ofSeconds 300 ∧
      tuning.backoff.delayWith Double.unrounded 3 = .ofSeconds 300 := by
  let backoff : Backoff := { base := .zero, multiplier := .nearest false (10 ^ 200) }
  have hload : Tuning.load steep = .ok { backoff } := by decide +kernel
  have hbase : backoff.base.millis = 0 := Nat.zero_div _
  exact ⟨_, hload, rfl, documented_of_base_eq hbase 3, by decide +kernel, by decide +kernel⟩

end Onboarding.Backoff
