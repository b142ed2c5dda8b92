import Mathlib.Data.List.DropRight
import Onboarding.Proofs.Approval
import Onboarding.Proofs.Phases
import Onboarding.Proofs.Swaps

namespace Onboarding

def Attempt.isSetback (tuning : Tuning) (a : Attempt) : Bool :=
  -- It failed, but may be repeated.
  a.call.any (·.isSetback tuning)

def sinceEntry (phase : Phase) (past : List Attempt) : List Attempt :=
  -- The last attempts, as far back as all of them were made in this phase.
  past.rtakeWhile fun a => a.read.state.phase? = some phase

def setbacksIn (tuning : Tuning) (phase : Phase) (past : List Attempt) : Nat :=
  (sinceEntry phase past).countP (·.isSetback tuning)

/-- The registration has failed in a phase, with its last attempt. Either this was answered for
good, with something left of the budget, or it failed in passing and was the last one granted. -/
structure FailedIn (tuning : Tuning) (past : List Attempt) (r : Record) (phase : Phase) : Prop where
  state : r.state = phase.failure
  counted : r.retryCount = setbacksIn tuning phase past
  last : ∃ a call detail, past.getLast? = some a ∧ a.written = r ∧
    a.read.state.phase? = some phase ∧ a.call = some call ∧ r.errorDetail = some detail ∧
    ((call.answer tuning = .failed .permanent detail ∨ call.answer tuning = .denied detail) ∧
        r.retryCount < tuning.budgets.maxAttempts phase.step ∨
      ∃ cause, call.answer tuning = .failed .transient cause ∧
        detail = Record.exhaustion (tuning.budgets.maxAttempts phase.step) cause ∧
        r.retryCount = tuning.budgets.maxAttempts phase.step)

section

variable {tuning : Tuning} {phase : Phase} {past : List Attempt} {a : Attempt} {call : Call}

theorem isSetback_of_transient {cause : String} (hc : a.call = some call)
    (ha : call.answer tuning = .failed .transient cause) : a.isSetback tuning = true := by
  rw [Attempt.isSetback, hc, Option.any_some, Call.isSetback_of_transient ha]

theorem isSetback_of_call_eq_none (hc : a.call = none) : a.isSetback tuning = false := by
  rw [Attempt.isSetback, hc, Option.any_none]

theorem isSetback_of_not_transient (hc : a.call = some call)
    (ha : ∀ cause, call.answer tuning ≠ .failed .transient cause) :
    a.isSetback tuning = false := by
  rw [Attempt.isSetback, hc, Option.any_some, Call.isSetback_of_not_transient ha]

/-- Within a phase, the count goes up by one with each attempt that fails in passing. -/
theorem setbacksIn_snoc (h : a.read.state.phase? = some phase) :
    setbacksIn tuning phase (past ++ [a]) =
      setbacksIn tuning phase past + if a.isSetback tuning then 1 else 0 := by
  have hsince : sinceEntry phase (past ++ [a]) = sinceEntry phase past ++ [a] := by
    rw [sinceEntry, List.rtakeWhile_concat, if_pos (decide_eq_true h)]
    rfl
  rw [setbacksIn, hsince, List.countP_append, List.countP_singleton]
  rfl

/-- An attempt in another phase sets the count back to zero. -/
theorem setbacksIn_snoc_of_ne (h : a.read.state.phase? ≠ some phase) :
    setbacksIn tuning phase (past ++ [a]) = 0 := by
  have hsince : sinceEntry phase (past ++ [a]) = [] := by
    rw [sinceEntry, List.rtakeWhile_concat, if_neg (by simpa using h)]
  rw [setbacksIn, hsince, List.countP_nil]

end

namespace History

variable {κ : Type} [Collaborators κ] {tuning : Tuning} {past : List Attempt} {r : Record}
  {phase : Phase}

/-- The count of a record is the number of passing failures in its phase, and is below the budget.
-/
theorem retryCount_eq (hb : tuning.budgets.Admissible) (h : History κ tuning past r)
    (hp : r.state.phase? = some phase) :
    r.retryCount = setbacksIn tuning phase past ∧
      r.retryCount < tuning.budgets.maxAttempts phase.step := by
  -- Along the history: each attempt either stays in the phase and is counted, or comes into it.
  induction h generalizing phase with
  | new id did now =>
    cases hp
    exact ⟨rfl, (hb .identity).1⟩
  | @step past a h ha ih =>
    cases ha.effect with
    | begun hs _ hc hw hn =>
      have hread : a.read.state.phase? = some phase := by
        rw [hw] at hp
        rw [hs]
        exact hp
      obtain ⟨hcount, hlt⟩ := ih hread
      rw [hn, setbacksIn_snoc hread, isSetback_of_call_eq_none hc]
      exact ⟨hcount, hlt⟩
    | passed call hs _ _ _ hw hn =>
      -- The record has just come into the next phase, where it begins anew.
      have hne : a.read.state.phase? ≠ some phase := by
        rw [hs, Phase.phase?_asking, ← hp, hw]
        exact call.phase.phase?_onward_ne.symm
      rw [hn, setbacksIn_snoc_of_ne hne]
      exact ⟨rfl, (hb phase).1⟩
    | deferred call cause hs _ hc hanswer hx hw hn =>
      have hsame : call.phase = phase := by
        rw [hw, Phase.phase?_retry] at hp
        exact Option.some.inj hp
      subst hsame
      have hread : a.read.state.phase? = some call.phase := by rw [hs, Phase.phase?_asking]
      obtain ⟨hcount, hlt⟩ := ih hread
      rw [Record.failures_eq_of_lt hb hlt] at hx
      rw [hn, setbacksIn_snoc hread, isSetback_of_transient hc hanswer, if_pos rfl, ← hcount]
      exact ⟨rfl, hx⟩
    | refused _ _ _ _ _ _ hw | exhausted _ _ _ _ _ _ _ hw | lacking _ _ _ _ _ hw =>
      rw [hw, Phase.phase?_failure] at hp
      cases hp

/-- Nobody lacks what the question of its phase is about. -/
theorem not_lacking {a : Attempt} (h : History κ tuning past a.read)
    (hs : a.read.state = phase.asking)
    (hi : phase = .credentials ∧ a.read.identity = none ∨
      phase = .policy ∧ a.read.verifiedClaims = none) : False := by
  rcases hi with ⟨rfl, hi⟩ | ⟨rfl, hv⟩
  · obtain ⟨identity, _, hidentity, -⟩ := h.exists_resolves hs
    rw [hi] at hidentity
    cases hidentity
  · obtain ⟨_, claims, _, _, -, hclaims, -⟩ := h.exists_verifies hs
    rw [hv] at hclaims
    cases hclaims

/-- A registration that failed did so with its last attempt. -/
theorem exists_failedIn (hb : tuning.budgets.Admissible) (h : History κ tuning past r)
    (hf : r.state.isFailure = true) : ∃ phase, FailedIn tuning past r phase := by
  cases h with
  | new => cases hf
  | @step before a h ha =>
    cases ha.effect with
    | begun _ _ _ hw _ =>
      rw [hw] at hf
      cases hf
    | passed call _ _ _ _ hw _ =>
      rw [hw, call.phase.isFailure_onward] at hf
      cases hf
    | deferred call _ _ _ _ _ _ hw _ =>
      have hnone := State.phase?_of_isFailure hf
      rw [hw, call.phase.phase?_retry] at hnone
      cases hnone
    | refused call detail hs _ hc hanswer hw hn hd =>
      have hread : a.read.state.phase? = some call.phase := by rw [hs, Phase.phase?_asking]
      obtain ⟨hcount, hlt⟩ := h.retryCount_eq hb hread
      have hno : a.isSetback tuning = false := by
        refine isSetback_of_not_transient hc ?_
        intro cause he
        rcases hanswer with hanswer | hanswer <;> rw [hanswer] at he <;> cases he
      refine ⟨call.phase, hw, ?_, a, call, detail, List.getLast?_concat, rfl, hread, hc, hd,
        Or.inl ⟨hanswer, ?_⟩⟩
      · rw [hn, setbacksIn_snoc hread, hno]
        exact hcount
      · rw [hn]
        exact hlt
    | exhausted call cause hs _ hc hanswer hx hw hn hd =>
      have hread : a.read.state.phase? = some call.phase := by rw [hs, Phase.phase?_asking]
      obtain ⟨hcount, hlt⟩ := h.retryCount_eq hb hread
      have hfailures := Record.failures_eq_of_lt hb hlt
      -- The count was below the budget and one more reaches it.
      have hall : a.read.failures = tuning.budgets.maxAttempts call.phase.step := by omega
      refine ⟨call.phase, hw, ?_, a, call, _, List.getLast?_concat, rfl, hread, hc, hd,
        Or.inr ⟨cause, hanswer, by rw [hall], ?_⟩⟩
      · rw [hn, setbacksIn_snoc hread, isSetback_of_transient hc hanswer, if_pos rfl, hfailures,
          hcount]
      · rw [hn, hall]
    | lacking _ hs _ _ hi _ _ => exact (h.not_lacking hs hi).elim

end History

namespace World

variable {κ : Type} [Collaborators κ] {tuning : Tuning} {k : κ} {w : World κ} {deeds : List Deed}

/-- The budgets of the phases are exact and do not depend on one another. Whatever is done around a
registry, the count of a record that has not ended is the number of written attempts that failed in
passing since it came into its phase, and it is below the budget. A registration that failed was
refused before its budget was used up, or used it up exactly. -/
theorem Run.retryCount_is_exact (hb : tuning.budgets.Admissible)
    (h : Run tuning (initial k) deeds w) {r : Record} (hr : r ∈ w.registry.store.records) :
    (∀ phase, r.state.phase? = some phase →
      r.retryCount = setbacksIn tuning phase (swapsOn r.id deeds) ∧
        r.retryCount < tuning.budgets.maxAttempts phase.step) ∧
    (r.state.isFailure = true → ∃ phase, FailedIn tuning (swapsOn r.id deeds) r phase) := by
  have hpast := h.history hr
  refine ⟨?_, ?_⟩
  · intro phase hp
    exact hpast.retryCount_eq hb hp
  · intro hf
    exact hpast.exists_failedIn hb hf

/-- With two attempts granted and services that are always too slow, the second one is the last. -/
theorem slow_services_exhaust_budget : ∃ deeds w r,
    ({ identity := 2, credentials := 1, policy := 1 } : Budgets).Admissible ∧
      Run { budgets := ⟨2, 1, 1⟩, backoff := { base := .zero } }
        (initial (⟨.ofSeconds 11⟩ : Bureau .welcome)) deeds w ∧
      r ∈ w.registry.store.records ∧ r.state = .verificationFailed ∧
      ∃ phase, FailedIn { budgets := ⟨2, 1, 1⟩, backoff := { base := .zero } }
        (swapsOn r.id deeds) r phase := by
  have hb : (⟨2, 1, 1⟩ : Budgets).Admissible := by
    intro phase
    cases phase <;> decide
  obtain ⟨deeds, w, hrun, hw⟩ := exists_run_drain_submit
    { budgets := ⟨2, 1, 1⟩, backoff := { base := .zero } } (⟨.ofSeconds 11⟩ : Bureau .welcome)
    "did:web:participant" ⟨"1"⟩ (fun _ => .epoch) 5
  have hstates : w.registry.store.records.map Record.state = [.verificationFailed] := by
    rw [hw]
    decide +kernel
  obtain ⟨r, hr, hs⟩ := Store.exists_mem_of_map_state_eq hstates
  exact ⟨deeds, w, r, hb, hrun, hr, hs, (hrun.retryCount_is_exact hb hr).2 (by rw [hs]; rfl)⟩

end World

end Onboarding
