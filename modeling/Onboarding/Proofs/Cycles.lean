import Onboarding.Proofs.Allowance
import Onboarding.Proofs.Precedence
import Onboarding.Proofs.Sweeps
import Onboarding.Proofs.Waits

namespace Onboarding

namespace Attempt

variable {κ : Type} [Collaborators κ] {tuning : Tuning} {a : Attempt}

/-- Whatever a genuine attempt writes is due again once the longest wait is over, if the closing
leap second does not cut that short. -/
theorem IsGenuine.nextAttemptAt_le (h : a.IsGenuine κ tuning)
    (hin : ¬a.now.Overruns tuning.backoff.longest) :
    a.written.nextAttemptAt ≤ a.now.after tuning.backoff.longest := by
  rcases h.written_at.2 with hw | hw <;> rw [hw]
  · exact Instant.le_after_iff.2 hin
  · exact tuning.backoff.retryAt_le hin _

/-- The count stays below the budget of the phase, whatever phase the record is in then. -/
theorem IsGenuine.bounds_written (hb : tuning.budgets.Admissible) (h : a.IsGenuine κ tuning)
    (hbound : tuning.budgets.Bounds a.read) : tuning.budgets.Bounds a.written := by
  intro phase hp
  cases h.effect with
  | begun hs _ _ hw hn =>
    rw [hn]
    rw [hw] at hp
    exact hbound phase (by rw [hs]; exact hp)
  | passed _ _ _ _ _ _ hn =>
    rw [hn]
    exact (hb phase).1
  -- There is another attempt only if the budget has something left for it.
  | deferred call _ hs _ _ _ hx hw hn =>
    rw [hw, Phase.phase?_retry] at hp
    cases hp
    have hlt := hbound call.phase (by rw [hs, Phase.phase?_asking])
    rwa [hn, ← Record.failures_eq_of_lt hb hlt]
  | refused _ _ _ _ _ _ hw | exhausted _ _ _ _ _ _ _ hw | lacking _ _ _ _ _ hw =>
    rw [hw, Phase.phase?_failure] at hp
    cases hp

end Attempt

/-- The store after a cycle. What became of a record is what a genuine attempt has made of it, if it
was in the batch, and otherwise the record itself. -/
structure Store.Turn (κ : Type) [Collaborators κ] (tuning : Tuning) (now : Instant)
    (batch : List Record) (s t : Store) (became : Record → Record) : Prop where
  records : t.records = s.records.map became
  leased : ∀ r ∈ batch, ∃ a : Attempt, a.IsGenuine κ tuning ∧ a.read = r ∧ a.now = now ∧
    became r = a.written
  others : ∀ r, r.id ∉ batch.map Record.id → became r = r

namespace Registry

variable {κ : Type} [Collaborators κ]

/-- A cycle always ends with a report, and has replaced every record of its batch. -/
theorem exists_cycle_replaces (reg : Registry Store κ) (tuning : Tuning) (clock : Nat → Instant) :
    ∃ (attempts : List Attempt) (report : CycleReport) (after : Registry Store κ)
      (became : Record → Record),
      reg.cycle tuning clock = (.ok report, after) ∧
        report.leased = (reg.store.lease tuning.batchSize (clock 0)).length ∧
        attempts.map Attempt.read = reg.store.lease tuning.batchSize (clock 0) ∧
        Attempt.Series tuning clock 1 reg.collaborators attempts after.collaborators ∧
        Attempt.Replaces attempts reg.store after.store became := by
  have hbatch : ∀ r ∈ reg.store.lease tuning.batchSize (clock 0),
      r ∈ reg.store.records ∧ r.isDue (clock 0) = true :=
    fun r hr => Store.mem_of_mem_lease hr
  exact reg.exists_sweep tuning clock 1
    (fun r hr => Store.find?_eq_some_iff.2 ⟨(hbatch r hr).1, rfl⟩)
    (fun r hr => (Record.isDue_iff.1 (hbatch r hr).2).1) (reg.store.nodup_lease _ (clock 0)) _

/-- In a cycle with one reading of the clock, every record of the batch is replaced by what was made
of it then. -/
theorem exists_cycle_eq (reg : Registry Store κ) (tuning : Tuning) (now : Instant) :
    ∃ report after became, reg.cycle tuning (fun _ => now) = (.ok report, after) ∧
      report.leased = (reg.store.lease tuning.batchSize now).length ∧
      reg.store.Turn κ tuning now (reg.store.lease tuning.batchSize now) after.store became := by
  obtain ⟨attempts, report, after, became, hcycle, hleased, hread, hseries, hreplaces⟩ :=
    reg.exists_cycle_replaces tuning fun _ => now
  have hnames : attempts.map (·.read.id) =
      (reg.store.lease tuning.batchSize now).map Record.id := by
    rw [Attempt.map_read_id, hread]
  refine ⟨report, after, became, hcycle, hleased, hreplaces.records, ?_, ?_⟩
  · intro r hr
    obtain ⟨a, ha, rfl⟩ := List.mem_map.1 (hread ▸ hr)
    obtain ⟨i, hi⟩ := List.mem_iff_getElem?.1 ha
    exact ⟨a, hseries.isGenuine a ha, rfl, hseries.now_eq hi, hreplaces.written a ha⟩
  · intro r hr
    exact hreplaces.others r (hnames ▸ hr)

end Registry

end Onboarding
