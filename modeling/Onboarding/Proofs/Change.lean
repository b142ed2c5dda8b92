import Onboarding.Attempt

namespace Onboarding.Record

def moved (r : Record) (target : State) (now : Instant) : Record :=
  { r with state := target, stateTimestamp := now, nextAttemptAt := now }

def passed (r : Record) (target : State) (now : Instant) : Record :=
  { r.moved target now with retryCount := 0, errorDetail := none }

def ended (r : Record) (target : State) (detail : String) (now : Instant) : Record :=
  { r.moved target now with errorDetail := some detail }

def deferred (r : Record) (target : State) (detail : String) (due now : Instant) : Record :=
  { r.moved target now with
    retryCount := r.retryCount + 1
    errorDetail := some detail
    nextAttemptAt := due }

section

variable (r : Record) (target : State) (detail : String) (due now : Instant)

@[simp] theorem moved_state : (r.moved target now).state = target := rfl

@[simp] theorem moved_retryCount : (r.moved target now).retryCount = r.retryCount := rfl

@[simp] theorem passed_state : (r.passed target now).state = target := rfl

@[simp] theorem passed_retryCount : (r.passed target now).retryCount = 0 := rfl

@[simp] theorem ended_state : (r.ended target detail now).state = target := rfl

@[simp] theorem ended_retryCount : (r.ended target detail now).retryCount = r.retryCount := rfl

@[simp] theorem ended_errorDetail : (r.ended target detail now).errorDetail = some detail := rfl

@[simp] theorem deferred_state : (r.deferred target detail due now).state = target := rfl

@[simp] theorem deferred_retryCount :
    (r.deferred target detail due now).retryCount = r.retryCount + 1 := rfl

end

def exhaustion (failures : Nat) (detail : String) : String :=
  -- What the last failed attempt adds to its reason where the budget is used up.
  s!"retry budget exhausted after {failures} attempts: {detail}"

variable {r s : Record} {target : State} {detail : String} {due now : Instant}

/-- A record moves exactly along the edges that there are. -/
theorem moveTo_eq_ok_iff :
    r.moveTo target now = .ok s ↔ target ∈ r.state.successors ∧ s = r.moved target now := by
  unfold moveTo moved
  by_cases h : target ∈ r.state.successors
  · simp [h, eq_comm]
  · simp [h]

theorem moveTo_eq_error (h : target ∉ r.state.successors) :
    r.moveTo target now = .error ⟨r.state, target⟩ := if_neg h

/-- A success goes along an edge and forgets the failures. -/
theorem advance_eq_ok_iff :
    r.advance target now = .ok s ↔ target ∈ r.state.successors ∧ s = r.passed target now := by
  unfold advance moveTo passed moved
  by_cases h : target ∈ r.state.successors
  · simp [h, Except.map, eq_comm]
  · simp [h, Except.map]

/-- A registration fails along an edge only, and only in a state of failure. -/
theorem fail_eq_ok_iff :
    r.fail target detail now = .ok s ↔
      target.isFailure = true ∧ target ∈ r.state.successors ∧ s = r.ended target detail now := by
  unfold fail moveTo ended moved
  by_cases hf : target.isFailure = true
  · by_cases h : target ∈ r.state.successors
    · simp [hf, h, Except.map, eq_comm]
    · simp [hf, h, Except.map]
  · simp [hf]

/-- A retry goes along an edge and counts one more failure. -/
theorem scheduleRetry_eq_ok_iff :
    r.scheduleRetry target detail due now = .ok s ↔
      target ∈ r.state.successors ∧ s = r.deferred target detail due now := by
  unfold scheduleRetry moveTo deferred moved
  by_cases h : target ∈ r.state.successors
  · simp [h, Except.map, eq_comm]
  · simp [h, Except.map]

theorem begin_eq_ok (h : .verifyingIdentity ∈ r.state.successors) :
    r.begin now =
      .ok (.advanced r.state .verifyingIdentity, r.moved .verifyingIdentity now) := by
  have hp : r.pickUp now = .ok (r.moved .verifyingIdentity now) := moveTo_eq_ok_iff.2 ⟨h, rfl⟩
  rw [begin, hp]
  rfl

theorem succeed_eq_ok {route : Route} (h : route.onSuccess ∈ r.state.successors) :
    r.succeed route now =
      .ok (.advanced r.state route.onSuccess, r.passed route.onSuccess now) := by
  rw [succeed, advance_eq_ok_iff.2 ⟨h, rfl⟩]
  rfl

theorem giveUp_eq_ok (hf : target.isFailure = true) (h : target ∈ r.state.successors) :
    r.giveUp target detail now =
      .ok (.failed r.state target detail, r.ended target detail now) := by
  rw [giveUp, fail_eq_ok_iff.2 ⟨hf, h, rfl⟩]
  rfl

theorem retryOrGiveUp_eq_ok_of_isExhausted {tuning : Tuning} {step : Step} {fallback : Fallback}
    (hx : tuning.budgets.isExhausted step r.failures = true)
    (hf : fallback.onPermanent.isFailure = true) (h : fallback.onPermanent ∈ r.state.successors) :
    r.retryOrGiveUp tuning step fallback detail now =
      .ok (.failed r.state fallback.onPermanent (exhaustion r.failures detail),
        { r with retryCount := r.failures }.ended fallback.onPermanent
          (exhaustion r.failures detail) now) := by
  have hg := @giveUp_eq_ok { r with retryCount := r.failures } fallback.onPermanent
    (exhaustion r.failures detail) now hf h
  rw [retryOrGiveUp, if_pos hx]
  exact hg

theorem retryOrGiveUp_eq_ok_of_not_isExhausted {tuning : Tuning} {step : Step}
    {fallback : Fallback} (hx : ¬tuning.budgets.isExhausted step r.failures = true)
    (h : fallback.onTransient ∈ r.state.successors) :
    r.retryOrGiveUp tuning step fallback detail now =
      .ok (.retryScheduled fallback.onTransient r.failures (tuning.backoff.retryAt now r.failures),
        r.deferred fallback.onTransient detail (tuning.backoff.retryAt now r.failures) now) := by
  have hs : r.scheduleRetry fallback.onTransient detail
      (tuning.backoff.retryAt now r.failures) now = .ok _ := scheduleRetry_eq_ok_iff.2 ⟨h, rfl⟩
  simp only [retryOrGiveUp, if_neg hx, hs]
  rfl

end Onboarding.Record
