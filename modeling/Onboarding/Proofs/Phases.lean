import Onboarding.Proofs.Setbacks

/-!
The phases of a registration, each with a budget of its own. Picking up a record and resolving its
identity are one phase, so that starting over is no way to a new budget.
-/

namespace Onboarding

inductive Phase where
  | identity
  | credentials
  | policy
deriving DecidableEq

namespace Phase

def step : Phase → Step
  | identity => .resolveIdentity
  | credentials => .verifyCredentials
  | policy => .evaluatePolicy

def asking : Phase → State
  | identity => .verifyingIdentity
  | credentials => .verifyingCredentials
  | policy => .evaluatingPolicy

def retry : Phase → State
  | identity => .onboardingInitiated
  | credentials => .verifyingCredentials
  | policy => .evaluatingPolicy

def onward : Phase → State
  | identity => .verifyingCredentials
  | credentials => .evaluatingPolicy
  | policy => .onboarded

def failure : Phase → State
  | identity | credentials => .verificationFailed
  | policy => .policyDenied

end Phase

def State.phase? : State → Option Phase
  | .onboardingInitiated | .verifyingIdentity => some .identity
  | .verifyingCredentials => some .credentials
  | .evaluatingPolicy => some .policy
  | .onboarded | .policyDenied | .verificationFailed => none

def Budgets.Admissible (b : Budgets) : Prop :=
  ∀ phase : Phase, 1 ≤ b.maxAttempts phase.step ∧ b.maxAttempts phase.step ≤ Number.max32

namespace Phase

variable {phase : Phase}

@[simp] theorem phase?_asking (phase : Phase) : phase.asking.phase? = some phase := by
  cases phase <;> rfl

@[simp] theorem phase?_retry (phase : Phase) : phase.retry.phase? = some phase := by
  cases phase <;> rfl

@[simp] theorem phase?_failure (phase : Phase) : phase.failure.phase? = none := by
  cases phase <;> rfl

theorem phase?_onward_ne (phase : Phase) : phase.onward.phase? ≠ some phase := by
  cases phase <;> decide

theorem isFailure_onward (phase : Phase) : phase.onward.isFailure = false := by
  cases phase <;> rfl

theorem step_of?_asking (phase : Phase) {route : Route}
    (h : Route.of? phase.asking = some route) : route.step = phase.step := by
  cases phase <;> cases h <;> rfl

end Phase

theorem Route.step_of?_onboardingInitiated {route : Route}
    (h : Route.of? .onboardingInitiated = some route) : route.step = .pickUp := by
  cases h
  rfl

theorem State.phase?_eq_none_iff {s : State} : s.phase? = none ↔ s.isTerminal = true := by
  cases s <;> decide

theorem State.phase?_of_isFailure {s : State} (h : s.isFailure = true) : s.phase? = none := by
  cases s <;> first | rfl | cases h

/-- Below a budget the count of failures never stops. -/
theorem Record.failures_eq_of_lt {r : Record} {budgets : Budgets} {phase : Phase}
    (hb : budgets.Admissible) (hlt : r.retryCount < budgets.maxAttempts phase.step) :
    r.failures = r.retryCount + 1 := by
  have hmax := (hb phase).2
  rw [Record.failures]
  omega

namespace Call

def phase : Call → Phase
  | .resolution .. => .identity
  | .verification .. => .credentials
  | .evaluation .. => .policy

theorem IsAbout.state_eq {call : Call} {r : Record} (h : call.IsAbout r) :
    r.state = call.phase.asking := by
  cases call <;> exact h.1

end Call

namespace Attempt

inductive Effect (tuning : Tuning) (a : Attempt) : Prop
  | begun (hs : a.read.state = .onboardingInitiated) (hr : a.route.step = .pickUp)
      (hc : a.call = none) (hw : a.written.state = .verifyingIdentity)
      (hn : a.written.retryCount = a.read.retryCount)
  | passed (call : Call) (hs : a.read.state = call.phase.asking)
      (hr : a.route.step = call.phase.step) (hc : a.call = some call)
      (ha : ∀ kind detail, call.answer tuning ≠ .failed kind detail)
      (hw : a.written.state = call.phase.onward) (hn : a.written.retryCount = 0)
  | deferred (call : Call) (cause : String) (hs : a.read.state = call.phase.asking)
      (hr : a.route.step = call.phase.step) (hc : a.call = some call)
      (ha : call.answer tuning = .failed .transient cause)
      (hx : a.read.failures < tuning.budgets.maxAttempts call.phase.step)
      (hw : a.written.state = call.phase.retry)
      (hn : a.written.retryCount = a.read.retryCount + 1)
  | refused (call : Call) (detail : String) (hs : a.read.state = call.phase.asking)
      (hr : a.route.step = call.phase.step) (hc : a.call = some call)
      (ha : call.answer tuning = .failed .permanent detail ∨ call.answer tuning = .denied detail)
      (hw : a.written.state = call.phase.failure) (hn : a.written.retryCount = a.read.retryCount)
      (hd : a.written.errorDetail = some detail)
  | exhausted (call : Call) (cause : String) (hs : a.read.state = call.phase.asking)
      (hr : a.route.step = call.phase.step) (hc : a.call = some call)
      (ha : call.answer tuning = .failed .transient cause)
      (hx : tuning.budgets.maxAttempts call.phase.step ≤ a.read.failures)
      (hw : a.written.state = call.phase.failure) (hn : a.written.retryCount = a.read.failures)
      (hd : a.written.errorDetail = some (Record.exhaustion a.read.failures cause))
  /-- What the question is about is missing, so that nobody is asked. -/
  | lacking (phase : Phase) (hs : a.read.state = phase.asking) (hr : a.route.step = phase.step)
      (hc : a.call = none)
      (hi : phase = .credentials ∧ a.read.identity = none ∨
        phase = .policy ∧ a.read.verifiedClaims = none)
      (hw : a.written.state = phase.failure) (hn : a.written.retryCount = a.read.retryCount)

variable {κ : Type} [Collaborators κ] {tuning : Tuning} {a : Attempt}

/-- The step of a question and where a failed attempt at it leads to are set by its phase. -/
theorem IsGenuine.route_eq (h : a.IsGenuine κ tuning) {call : Call} {fallback : Fallback}
    (hq : call.IsAbout a.read) (hf : a.route.onFailure = some fallback) :
    a.route.step = call.phase.step ∧ fallback = ⟨call.phase.retry, call.phase.failure⟩ := by
  obtain ⟨hstep, hfallback⟩ := hq.route_eq h.routed hf
  cases call <;> exact ⟨hstep, hfallback⟩

/-- Whatever its course, a genuine attempt has one of the effects. -/
theorem IsGenuine.effect (h : a.IsGenuine κ tuning) : a.Effect tuning := by
  have hroute := h.routed
  -- Ten courses come down to six effects on the phase and the count.
  cases h.course with
  | begun hs hc _ hn =>
    rw [hs] at hroute
    refine .begun hs (Route.step_of?_onboardingInitiated hroute) hc ?_ ?_ <;>
      simp [hn]
  | resolved reply identity hs hc hb _ hn =>
    rw [hs] at hroute
    have hr := Phase.step_of?_asking .identity hroute
    refine .passed (.resolution a.read.did reply) hs hr hc ?_ ?_ ?_
    · intro kind detail hanswer
      cases (hb.inTime_eq _ _ _).symm.trans hanswer
    · simp [hn, Call.phase, Phase.onward]
    · simp [hn]
  | verified identity reply claims hs hi hc hb _ hn =>
    rw [hs] at hroute
    have hr := Phase.step_of?_asking .credentials hroute
    refine .passed (.verification a.read.id identity.presentedClaims reply) hs hr hc ?_ ?_ ?_
    · intro kind detail hanswer
      cases (hb.inTime_eq _ _ _).symm.trans hanswer
    · simp [hn, Call.phase, Phase.onward]
    · simp [hn]
  | allowed claims reply hs hv hc hb _ hn =>
    rw [hs] at hroute
    have hr := Phase.step_of?_asking .policy hroute
    refine .passed (.evaluation claims reply) hs hr hc ?_ ?_ ?_
    · intro kind detail hanswer
      cases (hb.inTime_eq _ _ _).symm.trans hanswer
    · simp [hn, Call.phase, Phase.onward]
    · simp [hn]
  | denied claims reply reason hs hv hc hb _ hn =>
    rw [hs] at hroute
    have hr := Phase.step_of?_asking .policy hroute
    refine .refused (.evaluation claims reply) ("policy denied membership: " ++ reason) hs hr hc
      (Or.inr (hb.inTime_eq _ _ _)) ?_ ?_ ?_ <;>
      simp [hn, Call.phase, Phase.failure]
  | withoutIdentity hs hi hc _ hn =>
    rw [hs] at hroute
    have hr := Phase.step_of?_asking .credentials hroute
    refine .lacking .credentials hs hr hc (Or.inl ⟨rfl, hi⟩) ?_ ?_ <;>
      simp [hn, Phase.failure]
  | withoutClaims hs hv hc _ hn =>
    rw [hs] at hroute
    have hr := Phase.step_of?_asking .policy hroute
    refine .lacking .policy hs hr hc (Or.inr ⟨rfl, hv⟩) ?_ ?_ <;>
      simp [hn, Phase.failure]
  | refused call fallback detail hc hq hf ha _ hn =>
    obtain ⟨hr, rfl⟩ := h.route_eq hq hf
    refine .refused call detail hq.state_eq hr hc (Or.inl ha) ?_ ?_ ?_ <;>
      simp [hn]
  | exhausted call fallback detail hc hq hf ha hx _ hn =>
    obtain ⟨hr, rfl⟩ := h.route_eq hq hf
    rw [Budgets.isExhausted_iff, hr] at hx
    refine .exhausted call detail hq.state_eq hr hc ha hx ?_ ?_ ?_ <;>
      simp [hn]
  | deferred call fallback detail hc hq hf ha hx _ hn =>
    obtain ⟨hr, rfl⟩ := h.route_eq hq hf
    rw [Budgets.isExhausted_iff, hr, Nat.not_le] at hx
    refine .deferred call detail hq.state_eq hr hc ha hx ?_ ?_ <;>
      simp [hn]

end Attempt

end Onboarding
