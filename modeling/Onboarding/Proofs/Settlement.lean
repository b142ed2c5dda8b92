import Onboarding.Proofs.Rounds
import Onboarding.Proofs.Runs

namespace Onboarding

/-- Where all that has not ended is due, there is nothing to lease exactly if all has ended. -/
theorem Store.IsReady.lease_eq_nil_iff {s : Store} {now : Instant} {limit : Nat}
    (h : s.IsReady now) (hlimit : 1 ≤ limit) : s.lease limit now = [] ↔ s.IsSettled := by
  rw [Store.lease_eq_nil_iff hlimit]
  constructor
  · intro hnone r hr
    by_contra hopen
    have ht : r.state.isTerminal = false := by simpa using hopen
    exact hnone r hr (Record.isDue_iff.2 ⟨ht, (h r hr ht).2⟩)
  · intro hsettled r hr hdue
    have hopen := (Record.isDue_iff.1 hdue).1
    rw [hsettled r hr] at hopen
    cases hopen

namespace Registry

variable {κ : Type} [Collaborators κ] {tuning : Tuning} {clock : Nat → Instant}
  {reg : Registry Store κ} {m n : Nat}

/-- A cycle finds nothing to do exactly if all registrations have ended. -/
theorem exists_cycle_afterCycles (hbatch : 1 ≤ tuning.batchSize)
    (hready : (reg.afterCycles tuning clock n).store.IsReady (clock n)) :
    ∃ report, (reg.afterCycles tuning clock n).cycle tuning (fun _ => clock n) =
        (.ok report, reg.afterCycles tuning clock (n + 1)) ∧
      (report.leased = 0 ↔ (reg.afterCycles tuning clock n).store.IsSettled) := by
  obtain ⟨report, _, hcycle, hleased, -⟩ := reg.exists_turn tuning clock n
  refine ⟨report, hcycle, ?_⟩
  rw [hleased, List.length_eq_zero_iff, hready.lease_eq_nil_iff hbatch]

/-- Running cycles always ends with reports: after as many as are allowed, or after one that found
nothing to lease. -/
theorem exists_drain_afterCycles (tuning : Tuning) (clock : Nat → Instant)
    (reg : Registry Store κ) (max : Nat) : ∀ k, ∃ reports j,
      drain tuning clock max k (reg.afterCycles tuning clock k) =
          (.ok reports, reg.afterCycles tuning clock (k + j)) ∧
        (j = max ∨ ∃ i, j = i + 1 ∧ (reg.afterCycles tuning clock (k + i)).store.lease
          tuning.batchSize (clock (k + i)) = []) := by
  induction max with
  | zero =>
    intro k
    exact ⟨[], 0, rfl, Or.inl rfl⟩
  | succ max ih =>
    intro k
    obtain ⟨report, _, hcycle, hleased, -⟩ := reg.exists_turn tuning clock k
    by_cases hzero : report.leased = 0
    · rw [hleased, List.length_eq_zero_iff] at hzero
      refine ⟨[report], 1, ?_, Or.inr ⟨0, rfl, hzero⟩⟩
      simp only [drain, hcycle, hleased, List.length_eq_zero_iff, if_pos hzero]
    · obtain ⟨reports, j, hdrain, hend⟩ := ih (k + 1)
      refine ⟨report :: reports, j + 1, ?_, ?_⟩
      · simp only [drain, hcycle, if_neg hzero, hdrain]
        rw [Nat.add_right_comm, Nat.add_assoc]
      · rcases hend with hall | ⟨i, hi, hnone⟩
        · exact Or.inl (by rw [hall])
        · refine Or.inr ⟨i + 1, by rw [hi], ?_⟩
          rwa [Nat.add_right_comm, Nat.add_assoc] at hnone

/-- Running cycles until one finds nothing to do stops when all registrations have ended. -/
theorem exists_drain_eq (hfirst : reg.store.IsReady (clock 0))
    (hgap : ∀ n, n + 1 < m → tuning.backoff.Spaced (clock n) (clock (n + 1)))
    (hbatch : 1 ≤ tuning.batchSize) {settled : Nat}
    (hsettled : (reg.afterCycles tuning clock settled).store.IsSettled) (max : Nat) :
    ∀ k, k ≤ settled → settled < k + max → k + max ≤ m → ∃ busy last,
      drain tuning clock max k (reg.afterCycles tuning clock k) =
          (.ok (busy ++ [last]), reg.afterCycles tuning clock (k + busy.length + 1)) ∧
        last.leased = 0 ∧ (∀ report ∈ busy, report.leased ≠ 0) ∧ k + busy.length ≤ settled ∧
        (reg.afterCycles tuning clock (k + busy.length)).store.IsSettled := by
  -- On the cycles that are left. Before the last of them everything has ended, so one is idle.
  induction max with
  | zero =>
    intro k hk hlt _
    omega
  | succ max ih =>
    intro k hk hlt hm
    obtain ⟨report, hcycle, hiff⟩ := exists_cycle_afterCycles hbatch
      (isReady_afterCycles hfirst hgap (show k < m by omega))
    by_cases hzero : report.leased = 0
    · refine ⟨[], report, ?_, hzero, by simp, hk, hiff.1 hzero⟩
      simp only [drain, hcycle, if_pos hzero]
      rfl
    · -- There was work, so this is not yet the cycle that finds everything settled.
      have hne : k ≠ settled := by
        rintro rfl
        exact hzero (hiff.2 hsettled)
      obtain ⟨busy, last, hdrain, hlast, hbusy, hle, hend⟩ :=
        ih (k + 1) (by omega) (by omega) (by omega)
      have hcount : k + 1 + busy.length = k + (report :: busy).length := by
        rw [List.length_cons]
        omega
      rw [hcount] at hdrain hle hend
      refine ⟨report :: busy, last, ?_, hlast, ?_, hle, hend⟩
      · simp only [drain, hcycle, if_neg hzero, hdrain]
        rfl
      · intro r hr
        rcases List.mem_cons.1 hr with rfl | hr
        · exact hzero
        · exact hbusy r hr

end Registry

/-- Running cycles settles what the rank of the registrations leaves to be done, if as many cycles
are allowed as that takes. -/
theorem Descent.isSettled_drain {κ : Type} [Collaborators κ] {tuning : Tuning}
    {clock : Nat → Instant} {reg : Registry Store κ} {kind : Record → Prop} {rank : Record → Nat}
    {total perRound max m : Nat} (hd : Descent κ tuning kind rank total)
    (hp : Pace κ tuning kind clock m) (hkind : ∀ r ∈ reg.store.records, kind r)
    (hfirst : reg.store.IsReady (clock 0)) (hbatch : 1 ≤ tuning.batchSize)
    (hcover : reg.store.records.length ≤ perRound * tuning.batchSize)
    (hm : total * perRound ≤ m) (hmax : total * perRound ≤ max) :
    ∃ reports n, Registry.drain tuning clock max 0 reg =
        (.ok reports, reg.afterCycles tuning clock n) ∧
      (reg.afterCycles tuning clock n).store.IsSettled := by
  have hsettled := hd.isSettled_afterCycles hp hkind hfirst hcover hm
  obtain ⟨reports, n, hdrain, hend⟩ := Registry.exists_drain_afterCycles tuning clock reg max 0
  rw [Nat.zero_add] at hdrain
  refine ⟨reports, n, hdrain, ?_⟩
  rcases hend with rfl | ⟨i, rfl, hnone⟩
  · exact Registry.isSettled_afterCycles_of_le hsettled hmax
  · rw [Nat.zero_add] at hnone
    by_cases hi : i < m
    · -- The clock can be relied on, so a cycle without work finds everything settled.
      have hready := hp.isReady_afterCycles hd.keeps hkind hfirst hi
      exact Registry.isSettled_afterCycles_of_le ((hready.lease_eq_nil_iff hbatch).1 hnone)
        (Nat.le_succ i)
    · exact Registry.isSettled_afterCycles_of_le hsettled (by omega)

def Tuning.cyclesFor (tuning : Tuning) (records : Nat) : Nat :=
  tuning.budgets.total * ((records + tuning.batchSize - 1) / tuning.batchSize)

namespace World

variable {κ : Type} [Collaborators κ] {tuning : Tuning} {k : κ} {w : World κ} {deeds : List Deed}

/-- A single worker settles what was submitted, whatever the services answer. It runs cycles that
are the longest wait for an attempt apart. Then each of them reports, and leases nothing only if all
registrations have ended; and this is so after as many cycles as it takes to lease all records as
often as a registration may take steps. So the worker that stops at the first cycle without work
has left nothing undone. -/
theorem Run.cycles_settle (hb : tuning.budgets.Admissible) (hbatch : 1 ≤ tuning.batchSize)
    (h : Run tuning (initial k) deeds w) {clock : Nat → Instant} {m : Nat}
    (hfirst : ∀ r ∈ w.registry.store.records,
      r.stateTimestamp < clock 0 ∧ r.nextAttemptAt ≤ clock 0)
    (hgap : ∀ n, n + 1 < m → tuning.backoff.Spaced (clock n) (clock (n + 1))) :
    (∀ n < m, ∃ report, ((w.registry.afterCycles tuning clock n).cycle tuning
        fun _ => clock n).1 = .ok report ∧
      (report.leased = 0 ↔ (w.registry.afterCycles tuning clock n).store.IsSettled)) ∧
    (∀ n, tuning.cyclesFor w.registry.store.records.length ≤ n → n ≤ m →
      (w.registry.afterCycles tuning clock n).store.IsSettled) ∧
    (tuning.cyclesFor w.registry.store.records.length < m → ∃ busy last,
      (w.registry.drain tuning clock m 0).1 = .ok (busy ++ [last]) ∧ last.leased = 0 ∧
        (∀ report ∈ busy, report.leased ≠ 0) ∧
        busy.length ≤ tuning.cyclesFor w.registry.store.records.length ∧
        (w.registry.drain tuning clock m 0).2.store.IsSettled) := by
  have hbound : w.registry.store.Bounded tuning.budgets := fun r hr => (h.history hr).bounds hb
  -- So many batches hold all the records.
  have hcover : w.registry.store.records.length ≤
      (w.registry.store.records.length + tuning.batchSize - 1) / tuning.batchSize *
        tuning.batchSize := by
    have hlt := @Nat.lt_div_mul_add (w.registry.store.records.length + tuning.batchSize - 1)
      tuning.batchSize hbatch
    omega
  have hready : w.registry.store.IsReady (clock 0) := fun r hr _ => hfirst r hr
  have hsettled (hm : tuning.cyclesFor w.registry.store.records.length ≤ m) :
      (w.registry.afterCycles tuning clock
        (tuning.cyclesFor w.registry.store.records.length)).store.IsSettled :=
    Registry.isSettled_afterCycles hb hbound hready hgap hcover hm
  refine ⟨?_, ?_, ?_⟩
  · intro n hn
    obtain ⟨report, hcycle, hiff⟩ := Registry.exists_cycle_afterCycles hbatch
      (Registry.isReady_afterCycles hready hgap hn)
    exact ⟨report, by rw [hcycle], hiff⟩
  · intro n hn hm
    exact Registry.isSettled_afterCycles_of_le (hsettled (hn.trans hm)) hn
  · intro hm
    obtain ⟨busy, last, hdrain, hlast, hbusy, hle, hend⟩ := Registry.exists_drain_eq hready hgap
      hbatch (hsettled hm.le) m 0 (Nat.zero_le _) (by omega) (by omega)
    have hstart : w.registry.afterCycles tuning clock 0 = w.registry := rfl
    rw [hstart] at hdrain
    rw [Nat.zero_add] at hle hend
    refine ⟨busy, last, by rw [hdrain], hlast, hbusy, hle, ?_⟩
    rw [hdrain, Nat.zero_add]
    exact Registry.isSettled_afterCycles_of_le hend (Nat.le_succ _)

def everyFiveMinutes (n : Nat) : Instant := Instant.epoch.after (.ofSeconds (300 * n + 1))

/-- With two attempts granted and services that are always too slow, six cycles suffice. -/
theorem slow_services_are_settled : ∃ deeds w, (⟨2, 1, 1⟩ : Budgets).Admissible ∧
    Run { budgets := ⟨2, 1, 1⟩ } (initial (⟨.ofSeconds 11⟩ : Bureau .welcome)) deeds w ∧
    w.registry.store.records.length = 1 ∧
    (∀ r ∈ w.registry.store.records, r.stateTimestamp < everyFiveMinutes 0 ∧
      r.nextAttemptAt ≤ everyFiveMinutes 0) ∧
    (∀ n, n + 1 < 7 → Backoff.Spaced {} (everyFiveMinutes n) (everyFiveMinutes (n + 1))) ∧
    (w.registry.afterCycles { budgets := ⟨2, 1, 1⟩ } everyFiveMinutes 6).store.IsSettled := by
  obtain ⟨deeds, w, hrun, hw, -⟩ := exists_run_submit { budgets := ⟨2, 1, 1⟩ }
    (initial (⟨.ofSeconds 11⟩ : Bureau .welcome)) "did:web:participant" ⟨"1"⟩ .epoch
  have hb : (⟨2, 1, 1⟩ : Budgets).Admissible := by
    intro phase
    cases phase <;> decide
  have hlength : w.registry.store.records.length = 1 := by
    rw [hw]
    decide +kernel
  have hfirst : ∀ r ∈ w.registry.store.records, r.stateTimestamp < everyFiveMinutes 0 ∧
      r.nextAttemptAt ≤ everyFiveMinutes 0 := by
    rw [hw]
    decide +kernel
  have hgap : ∀ n, n + 1 < 7 →
      Backoff.Spaced {} (everyFiveMinutes n) (everyFiveMinutes (n + 1)) := by
    have hlt : ∀ n < 6, everyFiveMinutes n < everyFiveMinutes (n + 1) := by decide +kernel
    have hsince : ∀ n < 6, (Backoff.longest {}).nanoseconds ≤
        (everyFiveMinutes (n + 1)).since (everyFiveMinutes n) := by decide +kernel
    have hleap : ∀ n < 6, (everyFiveMinutes (n + 1)).isLeap = false := by decide +kernel
    intro n hn
    refine ⟨hlt n (by omega), hsince n (by omega), ?_⟩
    rw [hleap n (by omega)]
    simp
  obtain ⟨-, hsettled, -⟩ := hrun.cycles_settle hb (by decide) hfirst hgap
  exact ⟨deeds, w, hb, hrun, hlength, hfirst, hgap,
    hsettled 6 (by rw [hlength]; decide) (by decide)⟩

def leapingClock : Nat → Instant
  | 0 => Instant.epoch.after (.ofSeconds 58)
  | 1 => Instant.epoch.after (.ofSeconds 59)
  | _ => (Instant.ofParts? 59 nanosPerSecond).getD .last

/-- The time between readings of the clock is not enough. A record that waits for a second from the
last second of a minute on is due in the next minute. In a leap second in between, a second after
that reading, there is nothing to do, although the registration goes on. -/
theorem leap_second_stops_early : ∃ deeds w, ({} : Budgets).Admissible ∧
    Run { backoff := { cap := .ofSeconds 1 } }
      (initial (⟨.ofSeconds 11⟩ : Bureau .welcome)) deeds w ∧
    w.registry.store.records.length = 1 ∧
    (∀ r ∈ w.registry.store.records,
      r.stateTimestamp < leapingClock 0 ∧ r.nextAttemptAt ≤ leapingClock 0) ∧
    (∀ n, n + 1 < 3 → leapingClock n < leapingClock (n + 1) ∧
      (min (Duration.ofSeconds 1) .day).nanoseconds ≤
        (leapingClock (n + 1)).since (leapingClock n)) ∧
    ∃ report, ((w.registry.afterCycles { backoff := { cap := .ofSeconds 1 } } leapingClock 2).cycle
        { backoff := { cap := .ofSeconds 1 } } fun _ => leapingClock 2).1 = .ok report ∧
      report.leased = 0 ∧
      ∃ r ∈ (w.registry.afterCycles { backoff := { cap := .ofSeconds 1 } }
        leapingClock 2).store.records, r.state = .onboardingInitiated := by
  obtain ⟨deeds, w, hrun, hw, -⟩ := exists_run_submit { backoff := { cap := .ofSeconds 1 } }
    (initial (⟨.ofSeconds 11⟩ : Bureau .welcome)) "did:web:participant" ⟨"1"⟩ .epoch
  have hb : ({} : Budgets).Admissible := by
    intro phase
    cases phase <;> decide
  have hlength : w.registry.store.records.length = 1 := by
    rw [hw]
    decide +kernel
  have hfirst : ∀ r ∈ w.registry.store.records,
      r.stateTimestamp < leapingClock 0 ∧ r.nextAttemptAt ≤ leapingClock 0 := by
    rw [hw]
    decide +kernel
  have hgap : ∀ n < 2, leapingClock n < leapingClock (n + 1) ∧
      (min (Duration.ofSeconds 1) .day).nanoseconds ≤
        (leapingClock (n + 1)).since (leapingClock n) := by decide +kernel
  obtain ⟨report, _, hcycle, hleased, -⟩ :=
    w.registry.exists_turn { backoff := { cap := .ofSeconds 1 } } leapingClock 2
  have hzero : ((w.registry.afterCycles { backoff := { cap := .ofSeconds 1 } } leapingClock
      2).store.lease 50 (leapingClock 2)).length = 0 := by
    rw [hw]
    decide +kernel
  refine ⟨deeds, w, hb, hrun, hlength, hfirst, fun n hn => hgap n (by omega), report,
    by rw [hcycle], hleased.trans hzero, Store.exists_mem_of_map_state_eq ?_⟩
  rw [hw]
  decide +kernel

end World

end Onboarding
