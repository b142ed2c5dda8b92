import Onboarding.Advance

namespace Onboarding

namespace Registry

variable {σ κ : Type} [RecordStore σ] [Collaborators κ]

def noteStalled (reg : Registry σ κ) (r : Record) (isStalled : Bool) : Registry σ κ :=
  if isStalled then reg.note [.stalled r.id r.state r.stateTimestamp r.retryCount] else reg

/-- Advances the records of a batch one after the other, the first of them at the reading `n` of
the clock and each at a reading of its own. -/
def advanceAll (tuning : Tuning) (clock : Nat → Instant) (n : Nat) (report : CycleReport) :
    List Record → Registry σ κ → Except StoreError CycleReport × Registry σ κ
  | [], reg => (.ok report, reg)
  | r :: rest, reg =>
    let now := clock n
    let isStalled := r.isStalled now tuning.stallThreshold
    match (reg.noteStalled r isStalled).advance tuning r now with
    | (.error e, reg) => (.error e, reg)
    | (.ok outcome, reg) =>
      advanceAll tuning clock (n + 1) ((report.countStalled isStalled).count outcome) rest reg

def cycle (reg : Registry σ κ) (tuning : Tuning) (clock : Nat → Instant) :
    Except StoreError CycleReport × Registry σ κ :=
  -- The first reading of the clock is for the lease.
  match RecordStore.lease reg.store tuning.batchSize (clock 0) with
  | (.error e, store) => (.error e, { reg with store := store })
  | (.ok batch, store) =>
    advanceAll tuning clock 1 { leased := batch.length } batch { reg with store := store }

/-- Runs cycles until one leases nothing, but at most `max` of them: the `k`-th at the instant
`clock k`, with all reports. The first error of the store ends it. -/
def drain (tuning : Tuning) (clock : Nat → Instant) :
    (max k : Nat) → Registry σ κ → Except StoreError (List CycleReport) × Registry σ κ
  | 0, _, reg => (.ok [], reg)
  | max + 1, k, reg =>
    match reg.cycle tuning fun _ => clock k with
    | (.error e, reg) => (.error e, reg)
    | (.ok report, reg) =>
      if report.leased = 0 then (.ok [report], reg)
      else
        match drain tuning clock max (k + 1) reg with
        | (.error e, reg) => (.error e, reg)
        | (.ok reports, reg) => (.ok (report :: reports), reg)

end Registry

def busyCycles (reports : List CycleReport) : Nat :=
  (reports.filter fun report => decide (report.leased ≠ 0)).length

end Onboarding
