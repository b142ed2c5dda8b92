import Onboarding.Instant.Basic
import Onboarding.Number.Double
import Onboarding.Number.Whole
import Onboarding.Route

namespace Onboarding

open Number

inductive FailureKind where
  | transient
  | permanent
deriving DecidableEq

def FailureKind.name : FailureKind → String
  | .transient => "Transient"
  | .permanent => "Permanent"

structure Budgets where
  identity : Nat := 5
  credentials : Nat := 5
  policy : Nat := 5
deriving DecidableEq

namespace Budgets

def maxAttempts (b : Budgets) : Step → Nat
  -- Picking up is part of the identity phase.
  | .pickUp | .resolveIdentity => b.identity
  | .verifyCredentials => b.credentials
  | .evaluatePolicy => b.policy

def isExhausted (b : Budgets) (step : Step) (failures : Nat) : Bool := b.maxAttempts step ≤ failures

end Budgets

/-- The growth of the wait between attempts. -/
structure Backoff where
  base : Duration := .ofSeconds 1
  multiplier : Double := .nearest false 2
  cap : Duration := .ofSeconds 300
deriving DecidableEq

namespace Backoff

def maxExponent : Nat := 2147483647

def millis (round : Extended → Extended) (b : Backoff) (failures : Nat) : Extended :=
  -- Each result of the computation is passed through `round`.
  let whole (d : Duration) : Extended := round (.finite (d.millis : Rat))
  let factor := Extended.power round b.multiplier.toExtended (min (failures - 1) maxExponent)
  Extended.min (round (Extended.mul (whole b.base) factor)) (whole b.cap)

def delayWith (round : Extended → Extended) (b : Backoff) (failures : Nat) : Duration :=
  .ofMillis ((b.millis round failures).toNat max64)

def delay (b : Backoff) (failures : Nat) : Duration := b.delayWith Double.rounded failures

def pauseWith (round : Extended → Extended) (b : Backoff) (failures : Nat) : Duration :=
  min (b.delayWith round failures) .day

def retryAtWith (round : Extended → Extended) (b : Backoff) (now : Instant) (failures : Nat) :
    Instant :=
  now.after (b.pauseWith round failures)

def pause (b : Backoff) (failures : Nat) : Duration := b.pauseWith Double.rounded failures

/-- When to try again after so many failures, the last one now. -/
def retryAt (b : Backoff) (now : Instant) (failures : Nat) : Instant :=
  b.retryAtWith Double.rounded now failures

end Backoff

end Onboarding
