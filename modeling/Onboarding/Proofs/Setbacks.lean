import Onboarding.Proofs.Preparation

namespace Onboarding

namespace Call

def step : Call → Step
  | .resolution .. => .resolveIdentity
  | .verification .. => .verifyCredentials
  | .evaluation .. => .evaluatePolicy

def fallback : Call → Fallback
  | .resolution .. => ⟨.onboardingInitiated, .verificationFailed⟩
  | .verification .. => ⟨.verifyingCredentials, .verificationFailed⟩
  | .evaluation .. => ⟨.evaluatingPolicy, .policyDenied⟩

def isSetback (tuning : Tuning) (call : Call) : Bool :=
  match call.answer tuning with
  | .failed .transient _ => true
  | _ => false

theorem isSetback_of_transient {tuning : Tuning} {call : Call} {detail : String}
    (h : call.answer tuning = .failed .transient detail) : call.isSetback tuning = true := by
  rw [isSetback, h]

theorem isSetback_of_not_transient {tuning : Tuning} {call : Call}
    (h : ∀ detail, call.answer tuning ≠ .failed .transient detail) :
    call.isSetback tuning = false := by
  unfold isSetback
  split
  · next detail ha => exact absurd ha (h detail)
  · rfl

theorem IsAbout.route_eq {call : Call} {r : Record} {route : Route} {fallback : Fallback}
    (hq : call.IsAbout r) (hr : Route.of? r.state = some route)
    (hf : route.onFailure = some fallback) : route.step = call.step ∧ fallback = call.fallback := by
  cases call with
  | resolution | verification | evaluation =>
    rw [hq.1] at hr
    cases hr
    cases hf
    exact ⟨rfl, rfl⟩

end Call

def setbacks (tuning : Tuning) (step : Step) (past : List Attempt) : Nat :=
  past.countP fun a => a.call.any fun call => decide (call.step = step) && call.isSetback tuning

/-- So many failures of a step do not use up its budget. Nothing uses up a budget that is beyond the
greatest count. -/
def Tuning.Grants (tuning : Tuning) (step : Step) (failures : Nat) : Prop :=
  tuning.budgets.maxAttempts step ≤ Number.max32 → failures < tuning.budgets.maxAttempts step

theorem Budgets.isExhausted_iff {budgets : Budgets} {step : Step} {failures : Nat} :
    budgets.isExhausted step failures = true ↔ budgets.maxAttempts step ≤ failures :=
  decide_eq_true_iff

variable {tuning : Tuning} {past : List Attempt} {a : Attempt} {call : Call} {detail : String}

theorem setbacks_snoc_of_call_eq_none (step : Step) (hc : a.call = none) :
    setbacks tuning step (past ++ [a]) = setbacks tuning step past := by
  simp [setbacks, hc]

theorem setbacks_snoc_of_not_transient (step : Step) (hc : a.call = some call)
    (ha : ∀ detail, call.answer tuning ≠ .failed .transient detail) :
    setbacks tuning step (past ++ [a]) = setbacks tuning step past := by
  simp [setbacks, hc, Call.isSetback_of_not_transient ha]

theorem setbacks_snoc_of_transient (step : Step) (hc : a.call = some call)
    (ha : call.answer tuning = .failed .transient detail) :
    setbacks tuning step (past ++ [a]) =
      setbacks tuning step past + if call.step = step then 1 else 0 := by
  have hyes := Call.isSetback_of_transient ha
  by_cases hs : call.step = step
  · simp [setbacks, hc, hyes, hs]
  · simp [setbacks, hc, hyes, hs]

/-- A failure that may be repeated uses up no budget. -/
theorem grants_of_not_isExhausted {r : Record}
    (hc : setbacks tuning call.step past = r.retryCount)
    (hx : ¬tuning.budgets.isExhausted call.step r.failures = true)
    (hg : ∀ step, tuning.Grants step (setbacks tuning step past))
    (hcall : a.call = some call) (ha : call.answer tuning = .failed .transient detail) :
    ∀ step, tuning.Grants step (setbacks tuning step (past ++ [a])) := by
  intro step hle
  have hold := hg step hle
  rw [setbacks_snoc_of_transient step hcall ha]
  by_cases hs : call.step = step
  · subst hs
    rw [if_pos rfl, hc]
    rw [Budgets.isExhausted_iff, Record.failures] at hx
    -- The count is cut off only above all budgets that can be used up.
    omega
  · rw [if_neg hs, Nat.add_zero]
    exact hold

/-- The failure that uses up a budget is the last one granted by it. -/
theorem failures_eq_of_isExhausted {r : Record} {step : Step}
    (hg : tuning.Grants step r.retryCount)
    (hx : tuning.budgets.isExhausted step r.failures = true) :
    r.failures = tuning.budgets.maxAttempts step ∧
      r.retryCount + 1 = tuning.budgets.maxAttempts step := by
  rw [Budgets.isExhausted_iff, Record.failures] at hx
  rw [Tuning.Grants] at hg
  rw [Record.failures]
  omega

end Onboarding
