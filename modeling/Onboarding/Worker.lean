import Onboarding.Cycle

/-!
Workers: cycle after cycle with a pause in between, until the worker is told to stop. Time passes
in milliseconds here, and only while calls are waited for and during the pauses.
-/

namespace Onboarding

namespace Registry

variable {σ κ : Type} [RecordStore σ] [Collaborators κ]

def cycleEvents (worker : Nat) : Except StoreError CycleReport → List Event
  -- A cycle without work is not worth noting.
  | .ok report => if report.leased = 0 then [] else [.cycleComplete worker report]
  | .error e => [.cycleAborted worker e]

/-- Runs cycles from `elapsed` milliseconds after `start` on. None begins after `stop` milliseconds
or at that moment; one that has begun goes on to its end. The readings of the clock within a cycle
are a nanosecond apart. -/
def poll (tuning : Tuning) (worker : Nat) (start : Instant) (stop elapsed : Nat)
    (reg : Registry σ κ) : Registry σ κ :=
  if elapsed < stop then
    let clock (n : Nat) := start.after (.ofMillis elapsed + ⟨n⟩)
    let (result, after) := reg.cycle tuning clock
    let took := after.waited - reg.waited
    poll tuning worker start stop (elapsed + took + max 1 tuning.pollInterval.millisUp)
      (after.note (cycleEvents worker result))
  else reg
termination_by stop - elapsed
decreasing_by omega

def work (reg : Registry σ κ) (tuning : Tuning) (worker : Nat) (start : Instant) (stop : Nat) :
    Registry σ κ :=
  (poll tuning worker start stop 0
    (reg.note [.workerStarted worker tuning.pollInterval])).note [.workerStopped worker]

end Registry

end Onboarding
