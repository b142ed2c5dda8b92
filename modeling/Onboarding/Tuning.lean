import Onboarding.Retry

namespace Onboarding

structure Tuning where
  pollInterval : Duration := .ofSeconds 5
  batchSize : Nat := 50
  workers : Nat := 1
  budgets : Budgets := {}
  backoff : Backoff := {}
  callTimeout : Duration := .ofSeconds 10
  stallThreshold : Duration := .ofSeconds 900
deriving DecidableEq

end Onboarding
