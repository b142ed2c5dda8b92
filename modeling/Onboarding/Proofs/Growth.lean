import Mathlib.Algebra.Order.Ring.Rat
import Mathlib.Tactic.Linarith
import Mathlib.Tactic.NormNum
import Mathlib.Tactic.Ring
import Onboarding.Proofs.Waits
import Onboarding.Settings

namespace Onboarding

open Number

namespace Number.Double

def greatest : Rat :=
  (⟨false, ⟨2046, by decide⟩, ⟨4503599627370495, by decide⟩⟩ : Double).magnitude

/-- What is left of a value in a range that ends with the greatest finite number. -/
def unrounded : Extended → Extended
  | .finite q =>
    if q < -greatest then .infinite true
    else if greatest < q then .infinite false
    else .finite q
  | x => x

theorem greatest_eq : greatest = 9007199254740991 * (2 : Rat) ^ (971 : Int) := by
  have hnormal : (⟨2046, by decide⟩ : Fin 2048) ≠ 0 := by decide
  simp only [greatest, magnitude, significand, scale, if_neg hnormal]
  norm_num

theorem significand_le (x : Double) : x.significand ≤ 9007199254740991 := by
  have hfraction := x.fraction.isLt
  unfold significand
  split_ifs <;> omega

theorem scale_le {x : Double} (h : x.isFinite = true) : x.scale ≤ 971 := by
  have hexponent : x.exponent.val ≠ 2047 := by
    intro heq
    have hlast : x.exponent = 2047 := Fin.ext heq
    simp [isFinite, hlast] at h
  have hlt := x.exponent.isLt
  unfold scale
  split_ifs <;> omega

theorem magnitude_le_greatest {x : Double} (h : x.isFinite = true) : x.magnitude ≤ greatest := by
  have hsignificand : (x.significand : Rat) ≤ 9007199254740991 := by
    exact_mod_cast x.significand_le
  have hscale : (2 : Rat) ^ x.scale ≤ (2 : Rat) ^ (971 : Int) :=
    zpow_le_zpow_right₀ (by norm_num) (scale_le h)
  calc x.magnitude
      = x.significand * (2 : Rat) ^ x.scale := rfl
    _ ≤ 9007199254740991 * (2 : Rat) ^ (971 : Int) := by
        apply mul_le_mul hsignificand hscale
        · exact zpow_nonneg (by norm_num) _
        · norm_num
    _ = greatest := greatest_eq.symm

theorem natCast_le_greatest {n : Nat} (h : n < 2 ^ 53) : (n : Rat) ≤ greatest := by
  have hn : (n : Rat) ≤ 9007199254740991 := by
    have hle : n ≤ 9007199254740991 := by omega
    exact_mod_cast hle
  have hpow : (1 : Rat) ≤ (2 : Rat) ^ (971 : Int) := one_le_zpow₀ (by norm_num) (by norm_num)
  calc (n : Rat)
      ≤ 9007199254740991 := hn
    _ ≤ 9007199254740991 * (2 : Rat) ^ (971 : Int) := le_mul_of_one_le_right (by norm_num) hpow
    _ = greatest := greatest_eq.symm

theorem unrounded_of_le {q : Rat} (h0 : 0 ≤ q) (h : q ≤ greatest) :
    unrounded (.finite q) = .finite q := by
  have hlow : ¬q < -greatest := by linarith
  have hhigh : ¬greatest < q := not_lt.2 h
  simp only [unrounded, if_neg hlow, if_neg hhigh]

theorem unrounded_of_lt {q : Rat} (h : greatest < q) :
    unrounded (.finite q) = .infinite false := by
  have hzero : (0 : Rat) ≤ greatest := by exact_mod_cast @natCast_le_greatest 0 (by norm_num)
  have hlow : ¬q < -greatest := by linarith
  simp only [unrounded, if_neg hlow, if_pos h]

/-- Whole numbers of up to fifty-three bits are within the range. -/
theorem keepsWhole_unrounded : KeepsWhole unrounded := by
  intro n h
  exact unrounded_of_le (Nat.cast_nonneg n) (natCast_le_greatest h)

theorem mul_infinite {q : Rat} (h : 1 ≤ q) :
    Extended.mul (.finite q) (.infinite false) = .infinite false := by
  have hne : q ≠ 0 := by linarith
  have hnot : ¬q < 0 := by linarith
  simp [Extended.mul, hne, hnot]

theorem infinite_mul {q : Rat} (h : 1 ≤ q) :
    Extended.mul (.infinite false) (.finite q) = .infinite false := by
  have hne : q ≠ 0 := by linarith
  have hnot : ¬q < 0 := by linarith
  simp [Extended.mul, hne, hnot]

/-- Once a factor is beyond the range, so is the product with whatever does not shrink it. -/
theorem unrounded_mul {p q : Rat} (hp : 1 ≤ p) (hq : 1 ≤ q) :
    unrounded (Extended.mul (unrounded (.finite p)) (unrounded (.finite q))) =
      unrounded (.finite (p * q)) := by
  have hp0 : 0 ≤ p := by linarith
  have hq0 : 0 ≤ q := by linarith
  have hpq0 : 0 ≤ p * q := mul_nonneg hp0 hq0
  have hple : p ≤ p * q := le_mul_of_one_le_right hp0 hq
  have hqle : q ≤ p * q := le_mul_of_one_le_left hq0 hp
  by_cases hpin : p ≤ greatest
  · by_cases hqin : q ≤ greatest
    · rw [unrounded_of_le hp0 hpin, unrounded_of_le hq0 hqin]
      rfl
    · have hout : greatest < q := not_le.1 hqin
      rw [unrounded_of_le hp0 hpin, unrounded_of_lt hout, mul_infinite hp,
        unrounded_of_lt (lt_of_lt_of_le hout hqle)]
      rfl
  · have hout : greatest < p := not_le.1 hpin
    rw [unrounded_of_lt hout, unrounded_of_lt (lt_of_lt_of_le hout hple)]
    by_cases hqin : q ≤ greatest
    · rw [unrounded_of_le hq0 hqin, infinite_mul hq]
      rfl
    · rw [unrounded_of_lt (not_le.1 hqin)]
      rfl

/-- Squaring repeatedly, what is collected times the power that is left stays the same. -/
theorem power_go_unrounded (n : Nat) : ∀ {p q : Rat}, 1 ≤ p → 1 ≤ q →
    Extended.power.go unrounded (unrounded (.finite p)) (unrounded (.finite q)) n =
      unrounded (.finite (p * q ^ n)) := by
  induction n using Nat.strong_induction_on with
  | _ n ih =>
    intro p q hp hq
    have hpq : 1 ≤ p * q := one_le_mul_of_one_le_of_one_le hp hq
    have hqq : 1 ≤ q * q := one_le_mul_of_one_le_of_one_le hq hq
    rw [Extended.power.go]
    by_cases hzero : n = 0
    · rw [if_pos hzero, hzero, pow_zero, mul_one]
    · have hhalf : n / 2 < n := Nat.div_lt_self (Nat.pos_of_ne_zero hzero) (by norm_num)
      rw [if_neg hzero, unrounded_mul hq hq]
      -- What is collected, times the power that is left, stays the same.
      by_cases hodd : n % 2 = 1
      · have hvalue : p * q * (q * q) ^ (n / 2) = p * q ^ n := by
          calc p * q * (q * q) ^ (n / 2)
              = p * q ^ (2 * (n / 2) + 1) := by rw [pow_succ, pow_mul, pow_two]; ring
            _ = p * q ^ n := by rw [show 2 * (n / 2) + 1 = n by omega]
        rw [if_pos hodd, unrounded_mul hp hq, ih _ hhalf hpq hqq, hvalue]
      · have hvalue : p * (q * q) ^ (n / 2) = p * q ^ n := by
          calc p * (q * q) ^ (n / 2)
              = p * q ^ (2 * (n / 2)) := by rw [pow_mul, pow_two]
            _ = p * q ^ n := by rw [show 2 * (n / 2) = n by omega]
        rw [if_neg hodd, ih _ hhalf hp hqq, hvalue]

/-- A power of what does not shrink is computed as it is, as far as the range goes. -/
theorem power_unrounded {q : Rat} (h : 1 ≤ q) (hin : q ≤ greatest) (n : Nat) :
    Extended.power unrounded (.finite q) n = unrounded (.finite (q ^ n)) := by
  have hone : unrounded (.finite 1) = .finite 1 := by
    exact_mod_cast keepsWhole_unrounded 1 (by norm_num)
  have hq : unrounded (.finite q) = .finite q := unrounded_of_le (by linarith) hin
  have hgo := power_go_unrounded n le_rfl h
  rw [hone, hq, one_mul] at hgo
  exact hgo

end Number.Double

theorem Number.Extended.toNat_le (limit : Nat) (x : Extended) : x.toNat limit ≤ limit := by
  rcases x with - | negative | q
  · exact Nat.zero_le _
  · cases negative
    · exact le_rfl
    · exact Nat.zero_le _
  · exact min_le_right _ _

theorem Number.Extended.toNat_mono (limit : Nat) {p q : Rat} (h : p ≤ q) :
    (Extended.finite p).toNat limit ≤ (Extended.finite q).toNat limit := by
  have hfloor : p.floor.toNat ≤ q.floor.toNat := Int.toNat_le_toNat (Rat.floor_monotone h)
  exact min_le_min_right limit hfloor

theorem Number.Extended.le_toNat {n limit : Nat} {q : Rat} (h : (n : Rat) ≤ q) (hn : n ≤ limit) :
    n ≤ (Extended.finite q).toNat limit := by
  have hfloor : (n : Int) ≤ q.floor := Rat.le_floor_iff.2 (by exact_mod_cast h)
  have hle : n ≤ q.floor.toNat := by omega
  exact le_min hle hn

namespace Backoff

structure IsAccepted (b : Backoff) : Prop where
  growing : isGrowing b.multiplier = true
  base_eq : b.base = .ofMillis b.base.millis
  base_le_cap : b.base.millis ≤ b.cap.millis
  cap_le_day : b.cap.millis ≤ Duration.day.millis

def growth (b : Backoff) (failures : Nat) : Rat :=
  b.multiplier.magnitude ^ min (failures - 1) maxExponent

def wait (b : Backoff) (failures : Nat) : Rat :=
  -- If the growth is beyond the range, it is the cap, also for a base of zero.
  if b.base.millis = 0 then if b.growth failures ≤ Double.greatest then 0 else b.cap.millis
  else min (b.base.millis * b.growth failures) b.cap.millis

namespace IsAccepted

variable {b : Backoff}

theorem one_le_magnitude (h : b.IsAccepted) : 1 ≤ b.multiplier.magnitude := by
  have hgrowing := h.growing
  simp only [isGrowing, Bool.and_eq_true, decide_eq_true_eq] at hgrowing
  exact hgrowing.2

theorem isFinite (h : b.IsAccepted) : b.multiplier.isFinite = true := by
  have hgrowing := h.growing
  simp only [isGrowing, Bool.and_eq_true] at hgrowing
  exact hgrowing.1.1

theorem toExtended_multiplier (h : b.IsAccepted) :
    b.multiplier.toExtended = .finite b.multiplier.magnitude := by
  have hpositive : b.multiplier.negative = false := by
    have hgrowing := h.growing
    simp only [isGrowing, Bool.and_eq_true, Bool.not_eq_true'] at hgrowing
    exact hgrowing.1.2
  have hexponent : (b.multiplier.exponent == 2047) = false := by
    have hfinite := h.isFinite
    simpa [Double.isFinite] using hfinite
  simp [Double.toExtended, Double.isNan, Double.isInfinite, hexponent, hpositive]

theorem cap_lt (h : b.IsAccepted) : b.cap.millis < 2 ^ 53 := by
  have hcap := h.cap_le_day
  have hday : Duration.day.millis = 86400000 := rfl
  omega

theorem base_lt (h : b.IsAccepted) : b.base.millis < 2 ^ 53 :=
  lt_of_le_of_lt h.base_le_cap h.cap_lt

theorem one_le_growth (h : b.IsAccepted) (failures : Nat) : 1 ≤ b.growth failures :=
  one_le_pow₀ h.one_le_magnitude

theorem growth_mono (h : b.IsAccepted) {m n : Nat} (hmn : m ≤ n) : b.growth m ≤ b.growth n := by
  apply pow_le_pow_right₀ h.one_le_magnitude
  omega

/-- The computation, without being rounded, comes to the wait. -/
theorem millis_eq (h : b.IsAccepted) (failures : Nat) :
    b.millis Double.unrounded failures = .finite (b.wait failures) := by
  have hbase := Double.keepsWhole_unrounded _ h.base_lt
  have hcap := Double.keepsWhole_unrounded _ h.cap_lt
  have hgrowth : Extended.power Double.unrounded b.multiplier.toExtended
      (min (failures - 1) maxExponent) = Double.unrounded (.finite (b.growth failures)) := by
    rw [h.toExtended_multiplier]
    exact Double.power_unrounded h.one_le_magnitude (Double.magnitude_le_greatest h.isFinite) _
  have hone := h.one_le_growth failures
  simp only [millis, hbase, hcap, hgrowth]
  unfold wait
  by_cases hzero : b.base.millis = 0
  · rw [if_pos hzero, hzero]
    by_cases hin : b.growth failures ≤ Double.greatest
    · rw [if_pos hin, Double.unrounded_of_le (by linarith) hin]
      have hnone : Double.unrounded (.finite 0) = .finite 0 := by
        exact_mod_cast Double.keepsWhole_unrounded 0 (by norm_num)
      simp [Extended.mul, hnone, Extended.min]
    · -- Zero times what is beyond the range is no number, and the cap is all that there is.
      rw [if_neg hin, Double.unrounded_of_lt (not_le.1 hin)]
      simp [Extended.mul, Double.unrounded, Extended.min]
  · have hbase1 : (1 : Rat) ≤ b.base.millis := by
      exact_mod_cast Nat.one_le_iff_ne_zero.2 hzero
    have hproduct := Double.unrounded_mul hbase1 hone
    rw [hbase] at hproduct
    rw [if_neg hzero, hproduct]
    have hpositive : (0 : Rat) ≤ b.base.millis * b.growth failures := by
      apply mul_nonneg <;> linarith
    by_cases hin : (b.base.millis : Rat) * b.growth failures ≤ Double.greatest
    · rw [Double.unrounded_of_le hpositive hin]
      rfl
    · have hout := not_le.1 hin
      have hless : (b.cap.millis : Rat) ≤ b.base.millis * b.growth failures :=
        (Double.natCast_le_greatest h.cap_lt).trans hout.le
      rw [Double.unrounded_of_lt hout, min_eq_right hless]
      rfl

/-- With settings that are accepted, further failures do not shorten the wait. -/
theorem wait_mono (h : b.IsAccepted) {m n : Nat} (hmn : m ≤ n) : b.wait m ≤ b.wait n := by
  have hgrowth := h.growth_mono hmn
  unfold wait
  by_cases hzero : b.base.millis = 0
  · rw [if_pos hzero, if_pos hzero]
    by_cases hin : b.growth n ≤ Double.greatest
    · rw [if_pos hin, if_pos (hgrowth.trans hin)]
    · rw [if_neg hin]
      split_ifs
      · exact Nat.cast_nonneg _
      · exact le_rfl
  · rw [if_neg hzero, if_neg hzero]
    apply min_le_min_right
    exact mul_le_mul_of_nonneg_left hgrowth (Nat.cast_nonneg _)

theorem base_le_wait (h : b.IsAccepted) (failures : Nat) :
    (b.base.millis : Rat) ≤ b.wait failures := by
  have hcap : (b.base.millis : Rat) ≤ b.cap.millis := by exact_mod_cast h.base_le_cap
  unfold wait
  by_cases hzero : b.base.millis = 0
  · rw [if_pos hzero]
    split_ifs
    · rw [hzero, Nat.cast_zero]
    · exact hcap
  · rw [if_neg hzero]
    have hgrown : (b.base.millis : Rat) ≤ b.base.millis * b.growth failures :=
      le_mul_of_one_le_right (Nat.cast_nonneg _) (h.one_le_growth failures)
    exact le_min hgrown hcap

theorem delayWith_mono (h : b.IsAccepted) {m n : Nat} (hmn : m ≤ n) :
    b.delayWith Double.unrounded m ≤ b.delayWith Double.unrounded n := by
  change (b.millis Double.unrounded m).toNat max64 * 1000000 ≤
    (b.millis Double.unrounded n).toNat max64 * 1000000
  rw [h.millis_eq, h.millis_eq]
  exact Nat.mul_le_mul_right _ (Extended.toNat_mono max64 (h.wait_mono hmn))

theorem base_le_delayWith (h : b.IsAccepted) (failures : Nat) :
    b.base ≤ b.delayWith Double.unrounded failures := by
  rw [h.base_eq]
  change b.base.millis * 1000000 ≤ (b.millis Double.unrounded failures).toNat max64 * 1000000
  rw [h.millis_eq]
  have hlimit : b.base.millis ≤ max64 := by
    have hbase := h.base_lt
    have hmax : max64 = 18446744073709551615 := rfl
    omega
  exact Nat.mul_le_mul_right _ (Extended.le_toNat (h.base_le_wait failures) hlimit)

/-- With settings that are accepted, further failures do not bring the next attempt forward, unless
the closing leap second cuts the wait short. -/
theorem retryAtWith_mono (h : b.IsAccepted) {now : Instant} {m n : Nat} (hmn : m ≤ n)
    (hin : ¬now.Overruns (b.pauseWith Double.unrounded n)) :
    b.retryAtWith Double.unrounded now m ≤ b.retryAtWith Double.unrounded now n := by
  have hdelay : (b.delayWith Double.unrounded m).nanoseconds ≤
      (b.delayWith Double.unrounded n).nanoseconds := h.delayWith_mono hmn
  apply Instant.after_mono _ hin
  change (min (b.delayWith Double.unrounded m) .day).nanoseconds ≤
    (min (b.delayWith Double.unrounded n) .day).nanoseconds
  rw [Duration.min_nanoseconds, Duration.min_nanoseconds]
  exact min_le_min_right _ hdelay

end IsAccepted

end Backoff

/-- What a chain of computations returns is returned by its last part, which was given what the
first one returned. -/
theorem exists_of_bind_eq_ok {ε α β : Type} {x : Except ε α} {f : α → Except ε β} {b : β}
    (h : x >>= f = .ok b) : ∃ a, x = .ok a ∧ f a = .ok b := by
  cases x with
  | error e => cases h
  | ok a => exact ⟨a, rfl, h⟩

theorem Backoff.isAccepted_of_load {env : Environment} {b : Backoff}
    (h : Backoff.load env = .ok b) : b.IsAccepted := by
  unfold Backoff.load at h
  obtain ⟨multiplier, -, h⟩ := exists_of_bind_eq_ok h
  split at h
  · next hgrowing =>
    obtain ⟨base, -, h⟩ := exists_of_bind_eq_ok h
    obtain ⟨cap, -, h⟩ := exists_of_bind_eq_ok h
    split at h
    · next hcap =>
      have hmillis (n : Nat) : (Duration.ofMillis n).millis = n :=
        Nat.mul_div_cancel n (by decide)
      cases h
      exact {
        growing := hgrowing
        base_eq := by rw [hmillis]
        base_le_cap := by rw [hmillis, hmillis]; exact hcap.1
        cap_le_day := by rw [hmillis]; exact hcap.2 }
    · cases h
  · cases h

theorem Tuning.isAccepted_of_load {env : Environment} {tuning : Tuning}
    (h : Tuning.load env = .ok tuning) : tuning.backoff.IsAccepted := by
  unfold Tuning.load at h
  obtain ⟨batchSize, -, h⟩ := exists_of_bind_eq_ok h
  obtain ⟨workers, -, h⟩ := exists_of_bind_eq_ok h
  obtain ⟨identity, -, h⟩ := exists_of_bind_eq_ok h
  obtain ⟨credentials, -, h⟩ := exists_of_bind_eq_ok h
  obtain ⟨policy, -, h⟩ := exists_of_bind_eq_ok h
  obtain ⟨backoff, hbackoff, h⟩ := exists_of_bind_eq_ok h
  obtain ⟨stallThreshold, -, h⟩ := exists_of_bind_eq_ok h
  obtain ⟨pollInterval, -, h⟩ := exists_of_bind_eq_ok h
  obtain ⟨callTimeout, -, h⟩ := exists_of_bind_eq_ok h
  cases h
  exact Backoff.isAccepted_of_load hbackoff

namespace Backoff

/-- What bounds a wait and the next attempt after it, whatever the settings are. The wait is a
number of milliseconds that sixty-four bits hold, and a move by more than a day is never asked for.
Within the leap second that ends the calendar, a wait that leads out of it is left out. -/
structure IsBounded (b : Backoff) (delay pause : Duration) (next : Instant → Instant) : Prop where
  millis_le : delay.millis ≤ max64
  pause_le : pause ≤ .day
  not_early : ∀ now, ¬now.Overruns pause → now ≤ next now
  not_late : ∀ now, ¬now.Overruns b.longest → next now ≤ now.after b.longest
  le_last : ∀ now ≤ Instant.last, next now ≤ Instant.last

/-- From the base to the cap, no further failure makes the wait shorter or the next attempt come
earlier. -/
structure IsGrowth (round : Extended → Extended) (b : Backoff) : Prop where
  delay_mono : ∀ m n, m ≤ n → b.delayWith round m ≤ b.delayWith round n
  base_le : ∀ n, b.base ≤ b.delayWith round n
  le_cap : ∀ n, b.delayWith round n ≤ b.cap
  retry_mono : ∀ now m n, m ≤ n → ¬now.Overruns (b.pauseWith round n) →
    b.retryAtWith round now m ≤ b.retryAtWith round now n

/-- A wait is bounded, whatever the settings are and however its computation is rounded. -/
theorem isBounded {round : Extended → Extended} (hround : KeepsWhole round) (b : Backoff)
    (failures : Nat) :
    b.IsBounded (b.delayWith round failures) (b.pauseWith round failures)
      (b.retryAtWith round · failures) where
  millis_le := by
    have hmillis : (b.delayWith round failures).millis = (b.millis round failures).toNat max64 :=
      Nat.mul_div_cancel _ (by decide)
    rw [hmillis]
    exact Extended.toNat_le _ _
  pause_le := by
    change (min (b.delayWith round failures) .day).nanoseconds ≤ Duration.day.nanoseconds
    rw [Duration.min_nanoseconds]
    exact min_le_right _ _
  not_early := fun _ hin => Instant.le_after_iff.2 hin
  not_late := fun _ hin => b.retryAtWith_le hround hin failures
  le_last := fun _ hnow => Instant.after_le_last hnow _

/-- With settings that are accepted, waits grow if their computation is not rounded. -/
theorem IsAccepted.isGrowth {b : Backoff} (h : b.IsAccepted) : b.IsGrowth Double.unrounded where
  delay_mono := fun _ _ hmn => h.delayWith_mono hmn
  base_le := h.base_le_delayWith
  le_cap := fun n => b.delayWith_le_cap Double.keepsWhole_unrounded n h.cap_lt
  retry_mono := fun _ _ _ hmn hin => h.retryAtWith_mono hmn hin

/-- The next attempt comes no earlier than now, and no later than after the cap, after a day or at
the end of the calendar, for every base, factor and cap, whether the computation is rounded or not.
With settings that the environment may ask for, the wait grows with the number of failures. -/
theorem retries_are_bounded (b : Backoff) (failures : Nat) :
    b.IsBounded (b.delay failures) (b.pause failures) (b.retryAt · failures) ∧
    b.IsBounded (b.delayWith Double.unrounded failures) (b.pauseWith Double.unrounded failures)
      (b.retryAtWith Double.unrounded · failures) ∧
    ∀ env tuning, Tuning.load env = .ok tuning → tuning.backoff.IsGrowth Double.unrounded := by
  refine ⟨b.isBounded Double.keepsWhole_rounded failures,
    b.isBounded Double.keepsWhole_unrounded failures, ?_⟩
  intro env tuning h
  exact (Tuning.isAccepted_of_load h).isGrowth

def gentle : Environment := fun key =>
  if key = "REGISTRY_BACKOFF_MULTIPLIER" then some " 1.5 "
  else if key = "REGISTRY_BACKOFF_BASE_MS" then some "250"
  else none

theorem gentle_wait_grows :
    ∃ tuning, Tuning.load gentle = .ok tuning ∧ tuning.backoff.IsGrowth Double.unrounded ∧
      ¬Instant.epoch.Overruns (tuning.backoff.pause 3) ∧
      .epoch ≤ tuning.backoff.retryAt .epoch 3 ∧ tuning.backoff.retryAt .epoch 3 ≤ .last ∧
      tuning.backoff.delay 3 = .ofMillis 562 := by
  let backoff : Backoff :=
    { base := .ofMillis 250, multiplier := .nearest false (3 / 2), cap := .ofMillis 300000 }
  have hload : Tuning.load gentle = .ok { backoff } := by decide +kernel
  obtain ⟨hbounded, -, hgrowth⟩ := retries_are_bounded backoff 3
  have hlast : Instant.epoch ≤ Instant.last := by decide
  have hin := Instant.not_overruns_of_le_last hlast (backoff.pause 3)
  exact ⟨_, hload, hgrowth gentle _ hload, hin, hbounded.not_early _ hin,
    hbounded.le_last _ hlast, by decide +kernel⟩

/-- Within the leap second that ends the calendar, a wait of a second ends before it has begun, and
no wait at all ends after `last`. -/
theorem retries_leave_bounds :
    Backoff.retryAt {} .closing 1 < .closing ∧
      Instant.last < Backoff.retryAt { base := .zero, cap := .zero } .closing 1 := by
  decide +kernel

end Backoff

end Onboarding
