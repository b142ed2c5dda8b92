import Mathlib.Algebra.Order.Ring.Rat
import Mathlib.Tactic.FieldSimp
import Mathlib.Tactic.Ring
import Onboarding.Proofs.Instants
import Onboarding.Retry

namespace Onboarding

open Number

namespace Number.Double

theorem nearestEven_natCast (n : Nat) : nearestEven n = n := by
  have hfloor : ((n : Rat)).floor = (n : Int) := by
    exact Rat.floor_intCast n
  simp [nearestEven, hfloor]

theorem rounded_zero : rounded (.finite 0) = .finite 0 := by
  simp [rounded, ofExtended, nearest, zero, toExtended, isNan, isInfinite, magnitude, significand]

/-- A whole number of at most so many bits, shifted until it has as many as a significand. -/
theorem shifted_bounds {n : Nat} (hpos : 0 < n) (h : n < 2 ^ 53) :
    4503599627370496 ≤ n * 2 ^ (52 - n.log2) ∧ n * 2 ^ (52 - n.log2) < 9007199254740992 := by
  have hlog : n.log2 < 53 := (Nat.log2_lt hpos.ne').2 h
  have hlow : 2 ^ n.log2 * 2 ^ (52 - n.log2) = 4503599627370496 := by
    rw [← pow_add, Nat.add_sub_of_le (by omega)]
    norm_num
  have hhigh : 2 ^ (n.log2 + 1) * 2 ^ (52 - n.log2) = 9007199254740992 := by
    rw [← pow_add, show n.log2 + 1 + (52 - n.log2) = 53 by omega]
    norm_num
  rw [← hlow, ← hhigh]
  exact ⟨Nat.mul_le_mul_right _ (Nat.log2_self_le hpos.ne'),
    Nat.mul_lt_mul_of_pos_right Nat.lt_log2_self (Nat.two_pow_pos _)⟩

theorem nearest_natCast {n : Nat} (hpos : 0 < n) (h : n < 2 ^ 53) :
    nearest false n = ofScaled false (n * 2 ^ (52 - n.log2)) ((n.log2 : Int) - 52) := by
  have hlog : n.log2 < 53 := (Nat.log2_lt hpos.ne').2 h
  have hexp : ((n.log2 : Int) - 52) = -((52 - n.log2 : Nat) : Int) := by omega
  have htight : ¬(n : Rat) < (2 : Rat) ^ (n.log2 : Int) := by
    rw [zpow_natCast, not_lt]
    exact_mod_cast Nat.log2_self_le hpos.ne'
  have hquot : (n : Rat) / (2 : Rat) ^ ((n.log2 : Int) - 52) = (n * 2 ^ (52 - n.log2) : Nat) := by
    rw [hexp, zpow_neg, zpow_natCast, div_inv_eq_mul]
    push_cast
    rfl
  have hone : Nat.log2 1 = 0 := by decide
  have hmax : max ((n.log2 : Int) - 52) (-1074) = (n.log2 : Int) - 52 := by omega
  -- The exponent fits at once, and the shifted number is whole, so that nothing is rounded.
  unfold nearest
  rw [if_neg (by simpa using hpos.ne')]
  simp only [Rat.num_natCast, Int.toNat_natCast, Rat.den_natCast, hone, Int.natCast_zero,
    Int.sub_zero, Int.sub_add_cancel, if_neg htight, hmax, hquot, nearestEven_natCast]
  rw [if_neg (shifted_bounds hpos h).2.ne]

/-- A scaled number within the range stands for the value that it was made of. -/
theorem toExtended_ofScaled {m : Nat} {e : Int} (hm : 4503599627370496 ≤ m)
    (hm' : m < 9007199254740992) (he : -1074 ≤ e) (he' : e ≤ 971) :
    (ofScaled false m e).toExtended = .finite (m * (2 : Rat) ^ e) := by
  have hfield : (e + 1075).toNat < 2047 := by omega
  have hscaled : ofScaled false m e =
      ⟨false, ⟨(e + 1075).toNat, by omega⟩, ⟨m - 4503599627370496, by omega⟩⟩ := by
    rw [ofScaled, if_neg (by omega), if_pos hfield]
    simp only [Double.mk.injEq, true_and]
    exact ⟨Fin.ext (Nat.mod_eq_of_lt (by omega)), Fin.ext (Nat.mod_eq_of_lt (by omega))⟩
  have hlast : (⟨(e + 1075).toNat, by omega⟩ : Fin 2048) ≠ 2047 := Fin.ne_of_val_ne (by simp; omega)
  have hfirst : (⟨(e + 1075).toNat, by omega⟩ : Fin 2048) ≠ 0 := Fin.ne_of_val_ne (by simp; omega)
  have hscale : ((e + 1075).toNat : Int) - 1075 = e := by omega
  rw [hscaled]
  simp only [toExtended, isNan, isInfinite, magnitude, significand, scale, hfirst, hscale,
    beq_eq_false_iff_ne.2 hlast, Bool.false_and, Bool.false_eq_true, if_false]
  rw [Nat.add_sub_of_le hm]

/-- Whole numbers of up to fifty-three bits are doubles. -/
theorem rounded_natCast {n : Nat} (h : n < 2 ^ 53) : rounded (.finite n) = .finite n := by
  rcases Nat.eq_zero_or_pos n with rfl | hpos
  · exact rounded_zero
  · have hlog : n.log2 < 53 := (Nat.log2_lt hpos.ne').2 h
    obtain ⟨hlow, hhigh⟩ := shifted_bounds hpos h
    have hexp : ((n.log2 : Int) - 52) = -((52 - n.log2 : Nat) : Int) := by omega
    have hvalue :
        ((n * 2 ^ (52 - n.log2) : Nat) : Rat) * (2 : Rat) ^ ((n.log2 : Int) - 52) = n := by
      rw [hexp, zpow_neg, zpow_natCast]
      push_cast
      field_simp
    rw [rounded, ofExtended, if_neg (by simp), nearest_natCast hpos h,
      toExtended_ofScaled hlow hhigh (by omega) (by omega), hvalue]

end Number.Double

/-- The greatest whole number that is no greater than the smaller of two values is no greater than
one of them. -/
theorem Number.Extended.toNat_min_natCast_le (x : Extended) (n limit : Nat) :
    (Extended.min x (.finite n)).toNat limit ≤ n := by
  have hfloor (q : Rat) (hq : q ≤ n) : q.floor.toNat ≤ n := by
    have hle : ((q.floor : Int) : Rat) ≤ n := (Rat.floor_le q).trans hq
    have hle' : q.floor ≤ (n : Int) := by exact_mod_cast hle
    omega
  cases x with
  | nan => exact (Nat.min_le_left _ _).trans (hfloor _ le_rfl)
  | infinite negative =>
    cases negative with
    | true => exact Nat.zero_le n
    | false => exact (Nat.min_le_left _ _).trans (hfloor _ le_rfl)
  | finite q =>
    refine (Nat.min_le_left _ _).trans (hfloor _ ?_)
    split_ifs with h
    · exact h
    · exact le_rfl

theorem Duration.min_nanoseconds (d e : Duration) :
    (min d e).nanoseconds = min d.nanoseconds e.nanoseconds := by
  change (if d.nanoseconds ≤ e.nanoseconds then d else e).nanoseconds = _
  split_ifs <;> omega

def Number.KeepsWhole (round : Extended → Extended) : Prop :=
  ∀ n : Nat, n < 2 ^ 53 → round (.finite n) = .finite n

/-- Doubles keep whole numbers of up to fifty-three bits. -/
theorem Number.Double.keepsWhole_rounded : KeepsWhole rounded := fun _ h => rounded_natCast h

namespace Backoff

variable (b : Backoff) {round : Extended → Extended}

def longest : Duration := min b.cap .day

/-- A cap that a double holds is kept in whole milliseconds. -/
theorem delayWith_le_cap (hround : KeepsWhole round) (failures : Nat)
    (h : b.cap.millis < 2 ^ 53) : b.delayWith round failures ≤ b.cap := by
  have hmillis : (b.millis round failures).toNat max64 ≤ b.cap.millis := by
    simp only [millis, hround _ h]
    exact Extended.toNat_min_natCast_le _ _ _
  change (b.millis round failures).toNat max64 * 1000000 ≤ b.cap.nanoseconds
  calc (b.millis round failures).toNat max64 * 1000000
      ≤ b.cap.millis * 1000000 := Nat.mul_le_mul_right _ hmillis
    _ ≤ b.cap.nanoseconds := Nat.div_mul_le_self _ _

/-- No wait that is kept is longer than the longest one. -/
theorem pauseWith_le (hround : KeepsWhole round) (failures : Nat) :
    b.pauseWith round failures ≤ b.longest := by
  change (min (b.delayWith round failures) .day).nanoseconds ≤ (min b.cap .day).nanoseconds
  rw [Duration.min_nanoseconds, Duration.min_nanoseconds]
  -- A cap of more than a day may be rounded up, but then the day counts.
  by_cases hcap : b.cap.nanoseconds ≤ Duration.day.nanoseconds
  · have hday : Duration.day.nanoseconds = 86400000000000 := rfl
    have hle : (b.delayWith round failures).nanoseconds ≤ b.cap.nanoseconds :=
      b.delayWith_le_cap hround failures (by rw [Duration.millis]; omega)
    omega
  · omega

/-- The next attempt waits no longer than the longest wait. -/
theorem retryAtWith_le (hround : KeepsWhole round) {now : Instant} (hin : ¬now.Overruns b.longest)
    (failures : Nat) : b.retryAtWith round now failures ≤ now.after b.longest :=
  Instant.after_mono (b.pauseWith_le hround failures) hin

/-- The next attempt comes no later than after the longest wait, unless the closing leap second cuts
that short. -/
theorem retryAt_le {now : Instant} (hin : ¬now.Overruns b.longest) (failures : Nat) :
    b.retryAt now failures ≤ now.after b.longest :=
  b.retryAtWith_le Double.keepsWhole_rounded hin failures

/-- The second of two readings of the clock is later than the first, and by the longest wait at
least. The time between readings does not show whether that wait is over if the second is taken
inside a leap second, so that there it is asked for. -/
structure Spaced (earlier later : Instant) : Prop where
  lt : earlier < later
  gap : b.longest.nanoseconds ≤ later.since earlier
  leap : later.isLeap = true → earlier.after b.longest ≤ later

/-- There is a second reading, so that the longest wait from the first one ends in the calendar. -/
theorem Spaced.not_overruns {b : Backoff} {earlier later : Instant} (h : b.Spaced earlier later) :
    ¬earlier.Overruns b.longest := by
  rintro ⟨hlast, hout⟩
  obtain ⟨-, hsecond⟩ := Instant.last_lt_iff.1 hlast
  obtain ⟨-, hsecond'⟩ := Instant.last_lt_iff.1 (hlast.trans h.lt)
  have hgap := h.gap
  have hlt := later.nanosecond_lt
  simp only [Instant.since, hsecond, hsecond', lt_irrefl, if_false, nanosPerSecond] at hgap hlt hout
  omega

theorem Spaced.after_le {b : Backoff} {earlier later : Instant} (h : b.Spaced earlier later) :
    earlier.after b.longest ≤ later := by
  by_cases hl : later.isLeap = true
  · exact h.leap hl
  · exact Instant.after_le_of_le_since h.lt hl h.gap

end Backoff

end Onboarding
