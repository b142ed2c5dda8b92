import Onboarding.Proofs.Admission
import Onboarding.Proofs.Reference
import Onboarding.Proofs.Rounds

/-!
Fairness. A cycle takes those records first that have been in their state for longest, and whatever
it does with them puts them behind all that it left out.
-/

namespace Onboarding

def Record.isAheadOf (q r : Record) : Bool :=
  !q.state.isTerminal && q.precedes stateTimestamp r && decide (q.id ≠ r.id)

theorem Record.isAheadOf_iff {q r : Record} :
    q.isAheadOf r = true ↔
      q.state.isTerminal = false ∧ q.precedes stateTimestamp r = true ∧ q.id ≠ r.id := by
  simp [isAheadOf, and_assoc]

/-- A record that was written later is not ahead. -/
theorem Record.not_isAheadOf_of_lt {q r : Record} (h : r.stateTimestamp < q.stateTimestamp) :
    ¬q.isAheadOf r = true := by
  intro hahead
  have hle := time_le_of_precedes (isAheadOf_iff.1 hahead).2.1
  exact not_lt_of_ge hle h

namespace Store

/-- The number of records ahead of one. -/
def ahead (s : Store) (r : Record) : Nat := s.records.countP (·.isAheadOf r)

/-- A batch without a record that is due is full of records that are ahead of it. -/
theorem exists_rest_of_notMem {s : Store} {limit : Nat} {now : Instant} {r : Record}
    (hr : r ∈ s.records) (hdue : r.isDue now = true) (hout : r ∉ s.lease limit now) :
    ∃ rest, s.records.Perm (s.lease limit now ++ rest) ∧
      s.ahead r = rest.countP (·.isAheadOf r) + limit := by
  obtain ⟨hfull, hbefore⟩ := length_lease_of_notMem hr hdue hout
  obtain ⟨rest, hperm⟩ := s.exists_perm_lease_append limit now
  have hall : (s.lease limit now).countP (·.isAheadOf r) = limit := by
    rw [List.countP_eq_length.2 ?_, hfull]
    intro q hq
    have hopen := (Record.isDue_iff.1 (mem_of_mem_lease hq).2).1
    exact Record.isAheadOf_iff.2 ⟨hopen, hbefore q hq⟩
  refine ⟨rest, hperm, ?_⟩
  rw [ahead, hperm.countP_eq, List.countP_append, hall, Nat.add_comm]

end Store

namespace Registry

variable {κ : Type}

/-- What may happen to a registry while its worker waits: registrations are submitted, all of them
later than some time, and the services and the log are used by others. -/
inductive Interlude (since : Instant) (reg : Registry Store κ) : Registry Store κ → Prop
  | idle : Interlude since reg reg
  | submitted {before : Registry Store κ} (h : Interlude since reg before) (raw : String)
      (id : ParticipantId) (now : Instant) (hnow : since < now) :
    Interlude since reg (before.submit raw id now).2
  | used {before after : Registry Store κ} (h : Interlude since reg before)
      (hstore : after.store = before.store) : Interlude since reg after

variable {reg after : Registry Store κ} {r : Record}

/-- What is submitted later is behind a record. -/
theorem Interlude.ahead_le (h : reg.Interlude r.stateTimestamp after)
    (hr : r ∈ reg.store.records) :
    r ∈ after.store.records ∧ after.store.ahead r ≤ reg.store.ahead r := by
  induction h with
  | idle => exact ⟨hr, Nat.le_refl _⟩
  | used _ hstore ih => rwa [hstore]
  | @submitted before _ raw id now hnow ih =>
    rcases before.submit_cases raw id now with hstore | ⟨did, hrecords⟩
    · rwa [hstore]
    · have hnew : ¬(Record.new id did now).isAheadOf r = true := Record.not_isAheadOf_of_lt hnow
      have hsame : (before.submit raw id now).2.store.ahead r = before.store.ahead r := by
        rw [Store.ahead, hrecords]
        exact List.countP_cons_of_neg hnew
      rw [hsame, hrecords]
      exact ⟨List.mem_cons_of_mem _ ih.1, ih.2⟩

variable [Collaborators κ] {tuning : Tuning} {clock : Nat → Instant}

/-- A cycle without a record that is due leaves it as it is, and takes a whole batch away from
before it. -/
theorem ahead_cycle (hr : r ∈ reg.store.records) (hdue : r.isDue (clock 0) = true)
    (hlater : ∀ i ≤ tuning.batchSize, r.stateTimestamp < clock i)
    (hout : r ∉ reg.store.lease tuning.batchSize (clock 0)) :
    r ∈ (reg.cycle tuning clock).2.store.records ∧
      (reg.cycle tuning clock).2.store.ahead r + tuning.batchSize ≤ reg.store.ahead r := by
  obtain ⟨attempts, report, after, became, hcycle, -, hread, hseries, hreplaces⟩ :=
    reg.exists_cycle_replaces tuning clock
  rw [hcycle]
  let batch := reg.store.lease tuning.batchSize (clock 0)
  have hleased : ∀ q, q ∈ batch ↔ ∃ a ∈ attempts, a.read = q := by
    intro q
    have hmem : q ∈ attempts.map Attempt.read ↔ q ∈ batch := by rw [hread]
    rw [← hmem, List.mem_map]
  have hstored : ∀ a ∈ attempts, a.read ∈ reg.store.records := by
    intro a ha
    exact (Store.mem_of_mem_lease ((hleased a.read).2 ⟨a, ha, rfl⟩)).1
  -- Whatever was written bears a reading of this cycle.
  have hbehind : ∀ a ∈ attempts, ¬a.written.isAheadOf r = true := by
    intro a ha
    obtain ⟨i, hi⟩ := List.mem_iff_getElem?.1 ha
    apply Record.not_isAheadOf_of_lt
    rw [(hseries.isGenuine a ha).written_at.1, hseries.now_eq hi]
    apply hlater
    have hlt : i < attempts.length := (List.getElem?_eq_some_iff.1 hi).1
    have hlength : attempts.length = batch.length := by rw [← List.length_map Attempt.read, hread]
    have hle : batch.length ≤ tuning.batchSize := reg.store.length_lease_le _ _
    omega
  constructor
  · rcases hreplaces.became_cases hstored hr with ⟨a, ha, hsame, -⟩ | ⟨-, hkept⟩
    · exact absurd ((hleased r).2 ⟨a, ha, hsame⟩) hout
    · rw [hreplaces.records]
      exact List.mem_map.2 ⟨r, hr, hkept⟩
  · obtain ⟨rest, hperm, hahead⟩ := Store.exists_rest_of_notMem hr hdue hout
    have hnone : batch.countP (fun q => (became q).isAheadOf r) = 0 := by
      rw [List.countP_eq_zero]
      intro q hq
      obtain ⟨a, ha, rfl⟩ := (hleased q).1 hq
      rw [hreplaces.written a ha]
      exact hbehind a ha
    have hrest : rest.countP (fun q => (became q).isAheadOf r) ≤
        rest.countP (·.isAheadOf r) := by
      apply List.countP_mono_left
      intro q hq hstill
      have hmem : q ∈ reg.store.records := hperm.mem_iff.2 (List.mem_append_right _ hq)
      rcases hreplaces.became_cases hstored hmem with ⟨a, ha, -, hw⟩ | ⟨-, hkept⟩
      · rw [hw] at hstill
        exact absurd hstill (hbehind a ha)
      · rwa [hkept] at hstill
    have hafter : after.store.ahead r = rest.countP (fun q => (became q).isAheadOf r) := by
      rw [Store.ahead, hreplaces.records, List.countP_map, hperm.countP_eq, List.countP_append]
      exact (congrArg (· + _) hnone).trans (Nat.zero_add _)
    simp only
    omega

variable {found : Nat → Registry Store κ} {clocks : Nat → Nat → Instant} {n : Nat}

/-- As long as a record is in none of the batches, each cycle takes a whole batch away from before
it. -/
theorem ahead_after_cycles (hr : r ∈ reg.store.records) (hopen : r.state.isTerminal = false)
    (hstart : reg.Interlude r.stateTimestamp (found 0))
    (hnext : ∀ m < n, ((found m).cycle tuning (clocks m)).2.Interlude r.stateTimestamp
      (found (m + 1)))
    (hlater : ∀ m < n, ∀ i ≤ tuning.batchSize, r.stateTimestamp < clocks m i)
    (hdue : ∀ m < n, r.nextAttemptAt ≤ clocks m 0)
    (hout : ∀ m < n, r ∉ (found m).store.lease tuning.batchSize (clocks m 0)) :
    r ∈ (found n).store.records ∧
      (found n).store.ahead r + n * tuning.batchSize ≤ reg.store.ahead r := by
  induction n with
  | zero =>
    obtain ⟨hmem, hle⟩ := hstart.ahead_le hr
    exact ⟨hmem, by omega⟩
  | succ n ih =>
    obtain ⟨hmem, hle⟩ := ih (fun m hm => hnext m (by omega)) (fun m hm => hlater m (by omega))
      (fun m hm => hdue m (by omega)) (fun m hm => hout m (by omega))
    have hlt := Nat.lt_succ_self n
    have hready : r.isDue (clocks n 0) = true := Record.isDue_iff.2 ⟨hopen, hdue n hlt⟩
    obtain ⟨hmem', hless⟩ := ahead_cycle hmem hready (hlater n hlt) (hout n hlt)
    obtain ⟨hmem'', hle'⟩ := (hnext n hlt).ahead_le hmem'
    refine ⟨hmem'', ?_⟩
    rw [Nat.succ_mul]
    omega

/-- No record starves. The `n`-th cycle of a worker finds the registry `found n` and reads the clock
`clocks n`; before the first and in between, others may submit registrations. If all that happens
bears a later time than a record that has not ended, and the record may be tried again whenever a
batch is leased, then it is in the batch of one of the first cycles: there is at most one more of
them than whole batches fit into the records that were ahead of it. -/
theorem exists_cycle_leasing (hbatch : 1 ≤ tuning.batchSize) (hr : r ∈ reg.store.records)
    (hopen : r.state.isTerminal = false) (hstart : reg.Interlude r.stateTimestamp (found 0))
    (hnext : ∀ n < reg.store.ahead r / tuning.batchSize,
      ((found n).cycle tuning (clocks n)).2.Interlude r.stateTimestamp (found (n + 1)))
    (hlater : ∀ n ≤ reg.store.ahead r / tuning.batchSize, ∀ i ≤ tuning.batchSize,
      r.stateTimestamp < clocks n i)
    (hdue : ∀ n ≤ reg.store.ahead r / tuning.batchSize, r.nextAttemptAt ≤ clocks n 0) :
    ∃ n ≤ reg.store.ahead r / tuning.batchSize,
      r ∈ (found n).store.lease tuning.batchSize (clocks n 0) := by
  by_contra hnone
  have hout : ∀ n ≤ reg.store.ahead r / tuning.batchSize,
      r ∉ (found n).store.lease tuning.batchSize (clocks n 0) :=
    fun n hn hmem => hnone ⟨n, hn, hmem⟩
  let last := reg.store.ahead r / tuning.batchSize
  obtain ⟨hmem, hle⟩ := ahead_after_cycles hr hopen hstart hnext
    (fun n hn => hlater n (Nat.le_of_lt hn)) (fun n hn => hdue n (Nat.le_of_lt hn))
    (fun n hn => hout n (Nat.le_of_lt hn))
  -- The last of them leaves the record out, too, and there are not that many ahead of it.
  have hready : r.isDue (clocks last 0) = true :=
    Record.isDue_iff.2 ⟨hopen, hdue last (Nat.le_refl last)⟩
  obtain ⟨-, hless⟩ := ahead_cycle hmem hready (hlater last (Nat.le_refl last))
    (hout last (Nat.le_refl last))
  have hfew := Nat.lt_div_mul_add (a := reg.store.ahead r) hbatch
  omega

def twoApplicants : Registry Store (Bureau .welcome) :=
  let start : Registry Store (Bureau .welcome) :=
    { store := .empty, collaborators := ⟨.ofSeconds 11⟩ }
  ((start.submit "did:web:first" ⟨"1"⟩ (Instant.everySecond 0)).2.submit "did:web:second" ⟨"2"⟩
    (Instant.everySecond 1)).2

/-- With batches of one, each of two participants has had a turn after two cycles. -/
theorem two_applicants_are_leased : twoApplicants.store.records.length = 2 ∧
    ∀ r ∈ twoApplicants.store.records, twoApplicants.store.ahead r ≤ 1 ∧
      ∃ n ≤ 1, r ∈ (twoApplicants.afterCycles { batchSize := 1 }
        (fun n => Instant.everySecond (n + 2)) n).store.lease 1
          (Instant.everySecond (n + 2)) := by
  have hfacts : ∀ r ∈ twoApplicants.store.records, r.state.isTerminal = false ∧
      twoApplicants.store.ahead r ≤ 1 ∧
      ∀ n ≤ 1, r.stateTimestamp < Instant.everySecond (n + 2) ∧
        r.nextAttemptAt ≤ Instant.everySecond (n + 2) := by
    decide +kernel
  refine ⟨by decide +kernel, ?_⟩
  intro r hr
  obtain ⟨hopen, hahead, htimes⟩ := hfacts r hr
  rw [← Nat.div_one (twoApplicants.store.ahead r)] at hahead
  let found := twoApplicants.afterCycles { batchSize := 1 } fun n => Instant.everySecond (n + 2)
  obtain ⟨n, hn, hleased⟩ := @exists_cycle_leasing _ twoApplicants r _ { batchSize := 1 } found
    (fun n _ => Instant.everySecond (n + 2)) (Nat.le_refl 1) hr hopen .idle (fun _ _ => .idle)
    (fun n hn _ _ => (htimes n (hn.trans hahead)).1) (fun n hn => (htimes n (hn.trans hahead)).2)
  exact ⟨by rwa [Nat.div_one] at hahead, n, hn.trans hahead, hleased⟩

end Registry

end Onboarding
