import Onboarding.Proofs.Budgets

namespace Onboarding

namespace Budgets

/-- How often a record with this state and this count may still take a step. It is picked up once
for each attempt at its identity. -/
def left (b : Budgets) (s : State) (count : Nat) : Step → Nat
  | .pickUp =>
    match s with
    | .onboardingInitiated => b.identity - count
    | .verifyingIdentity => b.identity - (count + 1)
    | _ => 0
  | .resolveIdentity =>
    match s with
    | .onboardingInitiated | .verifyingIdentity => b.identity - count
    | _ => 0
  | .verifyCredentials =>
    match s with
    | .onboardingInitiated | .verifyingIdentity => b.credentials
    | .verifyingCredentials => b.credentials - count
    | _ => 0
  | .evaluatePolicy =>
    match s with
    | .onboardingInitiated | .verifyingIdentity | .verifyingCredentials => b.policy
    | .evaluatingPolicy => b.policy - count
    | _ => 0

def stepsLeft (b : Budgets) (r : Record) : Nat :=
  b.left r.state r.retryCount .pickUp + b.left r.state r.retryCount .resolveIdentity +
    b.left r.state r.retryCount .verifyCredentials + b.left r.state r.retryCount .evaluatePolicy

def total (b : Budgets) : Nat := 2 * b.identity + b.credentials + b.policy

def Bounds (b : Budgets) (r : Record) : Prop :=
  ∀ phase : Phase, r.state.phase? = some phase → r.retryCount < b.maxAttempts phase.step

theorem stepsLeft_new (b : Budgets) (id : ParticipantId) (did : Did) (now : Instant) :
    b.stepsLeft (.new id did now) = b.total := by
  simp only [stepsLeft, total, left, Record.new]
  omega

section

variable {b : Budgets} {phase : Phase} {count : Nat}

/-- A success uses up one attempt at the step that was taken, and the next phase starts with a
budget of its own. -/
theorem left_onward_add_le (hlt : count < b.maxAttempts phase.step) (step : Step) :
    b.left phase.onward 0 step + (if phase.step = step then 1 else 0) ≤
      b.left phase.asking count step := by
  cases phase <;> cases step <;>
    simp [left, maxAttempts, Phase.step, Phase.asking, Phase.onward] at hlt ⊢ <;> omega

theorem left_retry_add_le (hlt : count < b.maxAttempts phase.step) (step : Step) :
    b.left phase.retry (count + 1) step + (if phase.step = step then 1 else 0) ≤
      b.left phase.asking count step := by
  cases phase <;> cases step <;>
    simp [left, maxAttempts, Phase.step, Phase.asking, Phase.retry] at hlt ⊢ <;> omega

theorem left_failure_add_le (hlt : count < b.maxAttempts phase.step) (last : Nat) (step : Step) :
    b.left phase.failure last step + (if phase.step = step then 1 else 0) ≤
      b.left phase.asking count step := by
  cases phase <;> cases step <;>
    simp [left, maxAttempts, Phase.step, Phase.asking, Phase.failure] at hlt ⊢ <;> omega

end

end Budgets

namespace Attempt.IsGenuine

variable {κ : Type} [Collaborators κ] {tuning : Tuning} {a : Attempt}

theorem step_eq {call : Call} (h : a.IsGenuine κ tuning) (hc : a.call = some call) :
    a.route.step = call.step := by
  have hstep : ∀ c : Call, c.phase.step = c.step := by
    intro c
    cases c <;> rfl
  cases h.effect with
  | begun _ _ hn | lacking _ _ _ hn =>
    rw [hn] at hc
    cases hc
  | passed c _ hr hc' | deferred c _ _ hr hc' | refused c _ _ hr hc' | exhausted c _ _ hr hc' =>
    rw [hc] at hc'
    cases hc'
    rw [hr, hstep]

/-- An attempt uses up one of the steps of its kind, and adds to none. -/
theorem left_add_le (h : a.IsGenuine κ tuning)
    (hbound : tuning.budgets.Bounds a.read) (step : Step) :
    tuning.budgets.left a.written.state a.written.retryCount step +
        (if a.route.step = step then 1 else 0) ≤
      tuning.budgets.left a.read.state a.read.retryCount step := by
  cases h.effect with
  | begun hs hr _ hw hn =>
    -- One pick-up is spent. The attempt at the identity that it is for stays to be made.
    have hlt : a.read.retryCount < tuning.budgets.identity := hbound .identity (by rw [hs]; rfl)
    rw [hw, hn, hs, hr]
    cases step <;> simp [Budgets.left]
    omega
  | passed call hs hr _ _ hw hn =>
    rw [hw, hn, hs, hr]
    exact Budgets.left_onward_add_le (hbound _ (by rw [hs, Phase.phase?_asking])) step
  | deferred call _ hs hr _ _ _ hw hn =>
    rw [hw, hn, hs, hr]
    exact Budgets.left_retry_add_le (hbound _ (by rw [hs, Phase.phase?_asking])) step
  | refused call _ hs hr _ _ hw | exhausted call _ hs hr _ _ _ hw =>
    rw [hw, hs, hr]
    exact Budgets.left_failure_add_le (hbound _ (by rw [hs, Phase.phase?_asking])) _ step
  | lacking phase hs hr _ _ hw =>
    rw [hw, hs, hr]
    exact Budgets.left_failure_add_le (hbound _ (by rw [hs, Phase.phase?_asking])) _ step

/-- Every genuine attempt takes one of the steps that are left. -/
theorem stepsLeft_lt (h : a.IsGenuine κ tuning)
    (hbound : tuning.budgets.Bounds a.read) :
    tuning.budgets.stepsLeft a.written < tuning.budgets.stepsLeft a.read := by
  have hpick := h.left_add_le hbound .pickUp
  have hresolve := h.left_add_le hbound .resolveIdentity
  have hverify := h.left_add_le hbound .verifyCredentials
  have hevaluate := h.left_add_le hbound .evaluatePolicy
  simp only [Budgets.stepsLeft]
  -- Just one of the four has been taken.
  cases hstep : a.route.step with
  | pickUp | resolveIdentity | verifyCredentials | evaluatePolicy =>
    simp only [hstep, reduceCtorEq, if_true, if_false] at hpick hresolve hverify hevaluate
    omega

end Attempt.IsGenuine

namespace History

variable {κ : Type} [Collaborators κ] {tuning : Tuning} {past : List Attempt} {r : Record}

theorem bounds (hb : tuning.budgets.Admissible) (h : History κ tuning past r) :
    tuning.budgets.Bounds r := by
  intro phase hp
  exact (h.retryCount_eq hb hp).2

theorem isGenuine (h : History κ tuning past r) : ∀ a ∈ past, a.IsGenuine κ tuning := by
  induction h with
  | new => simp
  | @step past b _ hb ih =>
    intro a ha
    rcases List.mem_append.1 ha with ha | ha
    · exact ih a ha
    · rw [List.mem_singleton.1 ha]
      exact hb

/-- The attempts made at a step and those still left of it are within its budget. -/
theorem countP_add_left_le (hb : tuning.budgets.Admissible) (h : History κ tuning past r)
    (step : Step) :
    past.countP (fun a => a.route.step = step) +
        tuning.budgets.left r.state r.retryCount step ≤ tuning.budgets.maxAttempts step := by
  induction h with
  | new id did now => cases step <;> simp [Budgets.left, Budgets.maxAttempts, Record.new]
  | @step past a h ha ih =>
    have hstep := ha.left_add_le (h.bounds hb) step
    rw [List.countP_append, List.countP_singleton]
    simp only [decide_eq_true_eq]
    omega

/-- A record is at no higher a version than the budgets allow, less the steps that are left. -/
theorem version_add_stepsLeft_le (hb : tuning.budgets.Admissible) (h : History κ tuning past r) :
    r.version + tuning.budgets.stepsLeft r ≤ tuning.budgets.total := by
  induction h with
  | new id did now =>
    rw [Budgets.stepsLeft_new]
    exact (Nat.zero_add _).le
  | @step past a h ha ih =>
    have hless := ha.stepsLeft_lt (h.bounds hb)
    rw [ha.leadsTo.version]
    omega

end History

end Onboarding
