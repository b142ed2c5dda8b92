import Onboarding.Instant.Basic
import Onboarding.State

namespace Onboarding

inductive Outcome where
  | advanced (source target : State)
  | retryScheduled (state : State) (attempt : Nat) (nextAttemptAt : Instant)
  | failed (source target : State) (detail : String)
  /-- Somebody else wrote first, and the result was dropped. -/
  | conflict
  /-- There was nothing to do, or nothing to do it to. -/
  | skipped
deriving DecidableEq

structure CycleReport where
  leased : Nat := 0
  advanced : Nat := 0
  retried : Nat := 0
  failed : Nat := 0
  conflicts : Nat := 0
  skipped : Nat := 0
  stalled : Nat := 0
deriving DecidableEq

namespace CycleReport

def count (report : CycleReport) : Outcome → CycleReport
  | .advanced .. => { report with advanced := report.advanced + 1 }
  | .retryScheduled .. => { report with retried := report.retried + 1 }
  | .failed .. => { report with failed := report.failed + 1 }
  | .conflict => { report with conflicts := report.conflicts + 1 }
  | .skipped => { report with skipped := report.skipped + 1 }

def countStalled (report : CycleReport) (isStalled : Bool) : CycleReport :=
  if isStalled then { report with stalled := report.stalled + 1 } else report

end CycleReport

end Onboarding
