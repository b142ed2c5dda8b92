import Mathlib.Order.Defs.LinearOrder
import Onboarding.Instant.Basic

namespace Onboarding.Instant

theorem position_injective {t u : Instant} (h : t.position = u.position) : t = u := by
  obtain ⟨s, n, hn, hf, hl⟩ := t
  obtain ⟨s', n', hn', hf', hl'⟩ := u
  simp only [position, nanosPerSecond] at h hn hn'
  obtain ⟨rfl, rfl⟩ : s = s' ∧ n = n' := by omega
  rfl

instance : LinearOrder Instant where
  le_refl t := Int.le_refl t.position
  le_trans _ _ _ := Int.le_trans
  lt_iff_le_not_ge t u := by
    change t.position < u.position ↔ t.position ≤ u.position ∧ ¬u.position ≤ t.position
    omega
  le_antisymm _ _ h h' := position_injective (Int.le_antisymm h h')
  le_total t u := Int.le_total t.position u.position
  toDecidableLE := inferInstance

theorem le_iff {t u : Instant} : t ≤ u ↔ t.position ≤ u.position := Iff.rfl

theorem lt_iff {t u : Instant} : t < u ↔ t.position < u.position := Iff.rfl

def elapsed (t : Instant) : Int :=
  -- A leap second is counted as the second before it.
  t.second * nanosPerSecond + (t.nanosecond % nanosPerSecond : Nat)

def placeAt (total : Int) : Int :=
  min last.position (total / nanosPerSecond * (2 * nanosPerSecond) + total % nanosPerSecond)

theorem placeAt_mono {m n : Int} (h : m ≤ n) : placeAt m ≤ placeAt n := by
  simp only [placeAt, nanosPerSecond]
  omega

theorem position_getD_ofParts? {total : Int} (h : firstSecond * nanosPerSecond ≤ total) :
    ((ofParts? (total / nanosPerSecond) (total % nanosPerSecond).toNat).getD last).position =
      placeAt total := by
  unfold ofParts?
  split
  · next hvalid =>
    simp only [Option.getD_some, position, placeAt, last, nanosPerSecond, lastSecond] at hvalid ⊢
    omega
  · next hvalid =>
    simp only [Option.getD_none, position, placeAt, last, nanosPerSecond, lastSecond,
      firstSecond] at h hvalid ⊢
    omega

theorem elapsed_of_isLeap {t : Instant} (h : t.isLeap = true) :
    t.elapsed = t.second * nanosPerSecond + (t.nanosecond - nanosPerSecond) := by
  have hn := t.nanosecond_lt
  simp only [isLeap, decide_eq_true_eq, elapsed, nanosPerSecond] at h hn ⊢
  omega

theorem elapsed_of_not_isLeap {t : Instant} (h : ¬t.isLeap = true) :
    t.elapsed = t.second * nanosPerSecond + t.nanosecond := by
  simp only [isLeap, decide_eq_true_eq, elapsed, nanosPerSecond] at h ⊢
  omega

theorem first_le_elapsed (t : Instant) : firstSecond * nanosPerSecond ≤ t.elapsed := by
  have hf := t.first_le
  simp only [elapsed, firstSecond, nanosPerSecond] at hf ⊢
  omega

/-- A move forward that does not end inside the leap second where it began counts this as the
second before it. -/
theorem after_cases (t : Instant) (d : Duration) :
    (t.isLeap = true ∧ t.nanosecond + d.nanoseconds < 2 * nanosPerSecond ∧
      (t.after d).position = t.position + d.nanoseconds) ∨
    ((t.isLeap = true → 2 * nanosPerSecond ≤ t.nanosecond + d.nanoseconds) ∧
      (t.after d).position = placeAt (t.elapsed + d.nanoseconds)) := by
  have hfirst := t.first_le_elapsed
  have hd : (0 : Int) ≤ d.nanoseconds := Int.natCast_nonneg _
  have hplace := @position_getD_ofParts? (t.elapsed + d.nanoseconds) (by omega)
  rw [after, shift?]
  simp only [Int.tdiv_eq_ediv_of_nonneg hd, Int.tmod_eq_emod_of_nonneg hd]
  -- Only from inside a leap second are there two ways to go.
  by_cases hleap : t.isLeap = true
  · have hin : nanosPerSecond ≤ t.nanosecond := by simpa [isLeap] using hleap
    have hn := t.nanosecond_lt
    rw [elapsed_of_isLeap hleap] at hplace ⊢
    rw [if_pos hleap]
    split
    · next hout =>
      refine Or.inr ⟨fun _ => ?_, hplace⟩
      simp only [nanosPerSecond] at hout hin ⊢
      omega
    · next hstay =>
      simp only [nanosPerSecond] at hstay hin hn
      have hlt : t.nanosecond + d.nanoseconds < 2000000000 := by omega
      have hpart : (t.nanosecond + (d.nanoseconds : Int) % nanosPerSecond).toNat =
          t.nanosecond + d.nanoseconds := by
        simp only [nanosPerSecond]
        omega
      have hvalid : t.nanosecond + d.nanoseconds < 2 * nanosPerSecond ∧ firstSecond ≤ t.second ∧
          t.second ≤ lastSecond := ⟨hlt, t.first_le, t.le_last⟩
      refine Or.inl ⟨hleap, hlt, ?_⟩
      rw [if_neg (by simp only [nanosPerSecond]; omega), hpart, ofParts?, dif_pos hvalid]
      simp only [Option.getD_some, position]
      omega
  · rw [elapsed_of_not_isLeap hleap] at hplace ⊢
    rw [if_neg hleap]
    exact Or.inr ⟨fun h => absurd h hleap, hplace⟩

/-- Outside of leap seconds, the place of an instant goes by the nanoseconds since 1970. -/
theorem position_of_not_isLeap {t : Instant} (h : ¬t.isLeap = true) :
    t.position = placeAt t.elapsed := by
  have hl := t.le_last
  have he := elapsed_of_not_isLeap h
  simp only [isLeap, decide_eq_true_eq, nanosPerSecond, position, placeAt, last, lastSecond] at *
  omega

/-- Only the leap second that ends the calendar comes after `last`. -/
theorem last_lt_iff {t : Instant} : last < t ↔ t.isLeap = true ∧ t.second = lastSecond := by
  have hn := t.nanosecond_lt
  have hl := t.le_last
  simp only [lt_iff, isLeap, decide_eq_true_eq, position, last, nanosPerSecond,
    lastSecond] at hn hl ⊢
  omega

theorem nanosPerSecond_lt : nanosPerSecond < 2 * nanosPerSecond := by
  decide

def closing : Instant :=
  ⟨lastSecond, nanosPerSecond, nanosPerSecond_lt, last.first_le, last.le_last⟩

theorem second_lt_of_isLeap {t : Instant} (h : t.isLeap = true) (hlast : ¬last < t) :
    t.second < lastSecond := by
  have hle := t.le_last
  have hne : t.second ≠ lastSecond := fun heq => hlast (last_lt_iff.2 ⟨h, heq⟩)
  omega

/-- The move leads out of the leap second that ends the calendar. -/
def Overruns (t : Instant) (d : Duration) : Prop :=
  last < t ∧ 2 * nanosPerSecond ≤ t.nanosecond + d.nanoseconds

/-- Up to the last ordinary second, no move leads out of the closing leap second. -/
theorem not_overruns_of_le_last {t : Instant} (h : t ≤ last) (d : Duration) : ¬t.Overruns d :=
  fun hover => absurd hover.1 (not_lt.2 h)

/-- What leaves a leap second comes after all that is in it, unless there is nothing after it. -/
theorem le_placeAt_of_isLeap {t : Instant} (h : t.isLeap = true) {d : Duration}
    (hd : 2 * nanosPerSecond ≤ t.nanosecond + d.nanoseconds) (hin : ¬t.Overruns d) :
    (t.second + 1) * (2 * nanosPerSecond) ≤ placeAt (t.elapsed + d.nanoseconds) := by
  have hbefore := second_lt_of_isLeap h fun hlast => hin ⟨hlast, hd⟩
  have he := elapsed_of_isLeap h
  simp only [isLeap, decide_eq_true_eq, nanosPerSecond, placeAt, last, position,
    lastSecond] at *
  omega

/-- A move by a longer time leads further if it stays in the calendar, or leaves it before its last
leap second. -/
theorem after_mono {t : Instant} {d e : Duration} (h : d ≤ e) (hin : ¬t.Overruns e) :
    t.after d ≤ t.after e := by
  have hde : d.nanoseconds ≤ e.nanoseconds := h
  rw [le_iff]
  -- Each of the two moves stays in the leap second or does not.
  rcases t.after_cases d with ⟨hl, hd, hpd⟩ | ⟨hd, hpd⟩ <;>
    rcases t.after_cases e with ⟨hl', he, hpe⟩ | ⟨he, hpe⟩ <;> rw [hpd, hpe]
  · omega
  · have hout := le_placeAt_of_isLeap hl (he hl) hin
    simp only [position, nanosPerSecond] at hout hd ⊢
    omega
  · have hout := hd hl'
    omega
  · exact placeAt_mono (by omega)

/-- Beyond the last leap second there is nothing, and a move there ends before it. -/
theorem after_of_overruns {t : Instant} {d : Duration} (h : t.Overruns d) : t.after d = last := by
  obtain ⟨hleap, hend⟩ := last_lt_iff.1 h.1
  apply position_injective
  rcases t.after_cases d with ⟨-, hstay, -⟩ | ⟨-, hp⟩
  · have hout := h.2
    omega
  · have hout := h.2
    have hpast := elapsed_of_isLeap hleap
    rw [hp]
    simp only [placeAt, last, position, nanosPerSecond, lastSecond] at hout hend hpast ⊢
    omega

theorem after_zero (t : Instant) : t.after ⟨0⟩ = t := by
  apply position_injective
  rcases t.after_cases ⟨0⟩ with ⟨-, -, hp⟩ | ⟨hout, hp⟩ <;> rw [hp]
  · simp
  · have hleap : ¬t.isLeap = true := by
      intro hleap
      exact absurd (hout hleap) (Nat.not_le.2 t.nanosecond_lt)
    rw [position_of_not_isLeap hleap]
    simp

/-- A move forward leads back only if it leads out of the last leap second. -/
theorem le_after_iff {t : Instant} {d : Duration} : t ≤ t.after d ↔ ¬t.Overruns d := by
  constructor
  · intro hle hover
    rw [after_of_overruns hover] at hle
    exact absurd hover.1 (not_lt.2 hle)
  · intro hin
    calc t
        = t.after ⟨0⟩ := (after_zero t).symm
      _ ≤ t.after d := after_mono (Nat.zero_le d.nanoseconds) hin

/-- From up to `last`, no move leads beyond it. -/
theorem after_le_last {t : Instant} (h : t ≤ last) (d : Duration) : t.after d ≤ last := by
  rcases t.after_cases d with ⟨hleap, hstay, hp⟩ | ⟨-, hp⟩
  · have hbefore := second_lt_of_isLeap hleap (not_lt.2 h)
    rw [le_iff, hp]
    simp only [position, last, nanosPerSecond, lastSecond] at hstay hbefore ⊢
    omega
  · rw [le_iff, hp, placeAt]
    exact Int.min_le_left _ _

/-- Outside of leap seconds, the time between two readings of the clock has passed when the second
is taken. -/
theorem after_le_of_le_since {t u : Instant} {d : Duration} (htu : t < u)
    (hu : ¬u.isLeap = true) (h : d.nanoseconds ≤ u.since t) : t.after d ≤ u := by
  have hpast : t.elapsed + d.nanoseconds ≤ u.elapsed := by
    rw [elapsed_of_not_isLeap hu]
    simp only [since, if_neg hu] at h
    by_cases hl : t.isLeap = true
    · rw [elapsed_of_isLeap hl]
      simp only [if_pos hl, nanosPerSecond] at h ⊢
      -- The leap second is counted at most once, and never against the later reading.
      split_ifs at h <;> omega
    · rw [elapsed_of_not_isLeap hl]
      simp only [if_neg hl, nanosPerSecond] at h ⊢
      split_ifs at h <;> omega
  rw [le_iff, position_of_not_isLeap hu]
  rcases t.after_cases d with ⟨hl, hd, hp⟩ | ⟨-, hp⟩ <;> rw [hp]
  · rw [← position_of_not_isLeap hu]
    simp only [lt_iff, isLeap, decide_eq_true_eq, position, nanosPerSecond] at htu hu hl hd ⊢
    omega
  · exact placeAt_mono hpast

def everySecond (n : Nat) : Instant := epoch.after (.ofSeconds n)

end Onboarding.Instant
