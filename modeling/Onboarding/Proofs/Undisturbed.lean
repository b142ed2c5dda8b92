import Onboarding.Proofs.Reference
import Onboarding.Proofs.Settlement

namespace Onboarding

def Undisturbed (κ : Type) [Collaborators κ] (tuning : Tuning) : Prop :=
  ∀ (k : κ) (call : Call), call.IsReplyOf k → ∀ detail,
    call.answer tuning ≠ .failed .transient detail

def State.stepsToEnd : State → Nat
  | .onboardingInitiated => 4
  | .verifyingIdentity => 3
  | .verifyingCredentials => 2
  | .evaluatingPolicy => 1
  | .onboarded | .policyDenied | .verificationFailed => 0

theorem State.stepsToEnd_pos {s : State} (h : s.isTerminal = false) : 0 < s.stepsToEnd := by
  cases s <;> first | decide | cases h

theorem State.stepsToEnd_le (s : State) : s.stepsToEnd ≤ 4 := by
  cases s <;> decide

variable {κ : Type} [Collaborators κ] {tuning : Tuning} {a : Attempt}

namespace Attempt.IsGenuine

theorem not_transient (h : a.IsGenuine κ tuning) (hu : Undisturbed κ tuning) {call : Call}
    (hc : a.call = some call) (detail : String) :
    call.answer tuning ≠ .failed .transient detail := by
  obtain ⟨k, hk⟩ := h.replied call hc
  exact hu k call hk detail

/-- An attempt brings a record nearer to its end, and the next may follow at once. -/
theorem undisturbed (h : a.IsGenuine κ tuning) (hu : Undisturbed κ tuning) :
    a.written.nextAttemptAt = a.now ∧
      a.written.state.stepsToEnd < a.read.state.stepsToEnd ∧
      (a.read.retryCount = 0 → a.written.retryCount = 0) := by
  rw [written_state, written_retryCount]
  cases h.course with
  | begun hs _ _ hn | denied _ _ _ hs _ _ _ _ hn | withoutIdentity hs _ _ _ hn
  | withoutClaims hs _ _ _ hn =>
    rw [written, hn, hs]
    exact ⟨rfl, by simp [State.stepsToEnd], fun hzero => hzero⟩
  | resolved _ _ hs _ _ _ hn | verified _ _ _ hs _ _ _ _ hn | allowed _ _ hs _ _ _ _ hn =>
    rw [written, hn, hs]
    exact ⟨rfl, by simp [State.stepsToEnd], fun _ => rfl⟩
  | refused call fallback _ _ hq hf _ _ hn =>
    obtain ⟨-, rfl⟩ := h.route_eq hq hf
    have hnearer : call.phase.failure.stepsToEnd < call.phase.asking.stepsToEnd := by
      cases call.phase <;> decide
    rw [written, hn, hq.state_eq]
    exact ⟨rfl, hnearer, fun hzero => hzero⟩
  -- These two need a failure that may pass.
  | exhausted _ _ detail hc _ _ ha | deferred _ _ detail hc _ _ ha =>
    exact absurd ha (h.not_transient hu hc detail)

end Attempt.IsGenuine

namespace History

variable {past : List Attempt} {r : Record}

/-- Without passing failures no count ever rises. -/
theorem undisturbed (h : History κ tuning past r) (hu : Undisturbed κ tuning) :
    r.retryCount = 0 ∧ ∀ step, setbacks tuning step past = 0 := by
  induction h with
  | new id did now => exact ⟨rfl, fun _ => rfl⟩
  | @step past a h ha ih =>
    refine ⟨(ha.undisturbed hu).2.2 ih.1, ?_⟩
    intro step
    cases hc : a.call with
    | none => rw [setbacks_snoc_of_call_eq_none step hc, ih.2]
    | some call => rw [setbacks_snoc_of_not_transient step hc (ha.not_transient hu hc), ih.2]

/-- A registration that has ended is the reference, since no budget was used up. -/
theorem ending_eq_reference {verdicts : Verdicts} (h : History κ tuning past r)
    (hu : Undisturbed κ tuning) (hb : ∀ step, 1 ≤ tuning.budgets.maxAttempts step)
    (hg : verdicts.Govern κ tuning) (ht : r.state.isTerminal = true) :
    r.ending = verdicts.reference r.id r.did := by
  rcases (standing_of_isTerminal ht).1 (h.standing hb hg) with
    ⟨hreference, -⟩ | ⟨step, detail, -, hcount, -⟩
  · exact hreference
  · have hnone := (h.undisturbed hu).2 step
    have hsome := hb step
    omega

end History

def Made (κ : Type) [Collaborators κ] (tuning : Tuning) (r : Record) : Prop :=
  ∃ past, History κ tuning past r

theorem Made.step (h : Made κ tuning a.read) (ha : a.IsGenuine κ tuning) :
    Made κ tuning a.written := by
  obtain ⟨past, hpast⟩ := h
  exact ⟨past ++ [a], hpast.step ha⟩

namespace Undisturbed

variable (hu : Undisturbed κ tuning)

include hu

/-- Each undisturbed attempt brings a record nearer to its end, which is four steps away at most. -/
theorem descent : Descent κ tuning (Made κ tuning) (·.state.stepsToEnd) 4 where
  keeps _ ha hmade := hmade.step ha
  lowers _ ha _ := (ha.undisturbed hu).2.1
  pos _ _ ht := State.stepsToEnd_pos ht
  le_total r := r.state.stepsToEnd_le

theorem pace {clock : Nat → Instant} {m : Nat} (hlt : ∀ n, n + 1 < m → clock n < clock (n + 1)) :
    Pace κ tuning (Made κ tuning) clock m where
  lt := hlt
  due n hn a ha _ hnow := by
    rw [(ha.undisturbed hu).1, hnow]
    exact le_of_lt (hlt n hn)

end Undisturbed

end Onboarding
