import Onboarding.Cycle

namespace Onboarding

structure IsStill {κ : Type} [Collaborators κ] (k : κ) : Prop where
  resolve : ∀ did, (Collaborators.resolveIdentity k did).2 = k
  verify : ∀ id claims, (Collaborators.verifyCredentials k id claims).2 = k
  evaluate : ∀ claims, (Collaborators.evaluatePolicy k claims).2 = k

structure Fixed {κ : Type} (k : κ) where

instance {κ : Type} [Collaborators κ] (k : κ) : Collaborators (Fixed k) where
  resolveIdentity fixed did := ((Collaborators.resolveIdentity k did).1, fixed)
  verifyCredentials fixed id claims := ((Collaborators.verifyCredentials k id claims).1, fixed)
  evaluatePolicy fixed claims := ((Collaborators.evaluatePolicy k claims).1, fixed)

namespace Registry

variable {σ κ : Type} {k : κ}

def unfix (reg : Registry σ (Fixed k)) : Registry σ κ :=
  -- The services themselves in place of their state.
  { reg with collaborators := k }

@[simp] theorem unfix_store (reg : Registry σ (Fixed k)) : reg.unfix.store = reg.store := rfl

theorem unfix_noteStalled (reg : Registry σ (Fixed k)) (r : Record) (isStalled : Bool) :
    reg.unfix.noteStalled r isStalled = (reg.noteStalled r isStalled).unfix := by
  cases isStalled <;> rfl

theorem unfix_commit [RecordStore σ] (reg : Registry σ (Fixed k)) (read next : Record)
    (step : Step) (outcome : Outcome) :
    reg.unfix.commit read next step outcome =
      (reg.commit read next step outcome).map id unfix := by
  unfold commit
  rw [unfix_store]
  cases RecordStore.compareAndSwap reg.store next read.version with
  | mk result store =>
    cases result with
    | ok committed => rfl
    | error e => cases e <;> rfl

variable [Collaborators κ]

theorem unfix_ask (hk : IsStill k) (reg : Registry σ (Fixed k)) (tuning : Tuning) (r : Record)
    (step : Step) : reg.unfix.ask tuning r step = (reg.ask tuning r step).map id unfix := by
  -- Only here are the services asked, and what they leave behind is what they were.
  have hawait {ε α : Type} (reply : Reply ε α) {after : κ} (h : after = k) :
      reg.unfix.await tuning reply after =
        (reg.await tuning reply reg.collaborators).unfix := by
    rw [h]
    rfl
  cases step with
  | pickUp => rfl
  | resolveIdentity => exact Prod.ext rfl (hawait _ (hk.resolve r.did))
  | verifyCredentials =>
    cases hi : r.identity with
    | none =>
      simp only [ask, hi]
      rfl
    | some identity =>
      simp only [ask, hi]
      exact Prod.ext rfl (hawait _ (hk.verify r.id identity.presentedClaims))
  | evaluatePolicy =>
    cases hv : r.verifiedClaims with
    | none =>
      simp only [ask, hv]
      rfl
    | some claims =>
      simp only [ask, hv]
      exact Prod.ext rfl (hawait _ (hk.evaluate claims))

variable [RecordStore σ]

/-- A step is the same, whether the services are taken as such or as their one state. -/
theorem unfix_advance (hk : IsStill k) (reg : Registry σ (Fixed k)) (tuning : Tuning) (r : Record)
    (now : Instant) :
    reg.unfix.advance tuning r now = (reg.advance tuning r now).map id unfix := by
  unfold advance
  cases Route.of? r.state with
  | none => rfl
  | some route =>
    simp only [unfix_ask hk]
    cases reg.ask tuning r route.step with
    | mk answer? after =>
      cases answer? with
      | none =>
        cases r.begin now with
        | error e => rfl
        | ok result => exact unfix_commit after r result.2 route.step result.1
      | some answer =>
        cases h : r.settle tuning route answer now with
        | error e => simp only [Prod.map, id, h]; rfl
        | ok result =>
          simp only [Prod.map, id, h]
          exact unfix_commit after r result.2 route.step result.1

theorem unfix_advanceAll (hk : IsStill k) (tuning : Tuning) (clock : Nat → Instant)
    (batch : List Record) : ∀ (reg : Registry σ (Fixed k)) (n : Nat) (report : CycleReport),
      advanceAll tuning clock n report batch reg.unfix =
        (advanceAll tuning clock n report batch reg).map id unfix := by
  induction batch with
  | nil =>
    intro reg n report
    rfl
  | cons r rest ih =>
    intro reg n report
    simp only [advanceAll, unfix_noteStalled, unfix_advance hk]
    cases (reg.noteStalled r (r.isStalled (clock n) tuning.stallThreshold)).advance tuning r
        (clock n) with
    | mk result after =>
      cases result with
      | error e => rfl
      | ok outcome => exact ih after (n + 1) _

theorem unfix_cycle (hk : IsStill k) (reg : Registry σ (Fixed k)) (tuning : Tuning)
    (clock : Nat → Instant) :
    reg.unfix.cycle tuning clock = (reg.cycle tuning clock).map id unfix := by
  unfold cycle
  rw [unfix_store]
  cases RecordStore.lease reg.store tuning.batchSize (clock 0) with
  | mk result store =>
    cases result with
    | error e => rfl
    | ok batch => exact unfix_advanceAll hk tuning clock batch { reg with store := store } 1 _

theorem unfix_drain (hk : IsStill k) (tuning : Tuning) (clock : Nat → Instant) (max : Nat) :
    ∀ (n : Nat) (reg : Registry σ (Fixed k)),
      drain tuning clock max n reg.unfix = (drain tuning clock max n reg).map id unfix := by
  -- On the cycles that are left. Whether there is another one is decided by the report alone.
  induction max with
  | zero =>
    intro n reg
    rfl
  | succ max ih =>
    intro n reg
    simp only [drain, unfix_cycle hk]
    cases reg.cycle tuning fun _ => clock n with
    | mk result after =>
      cases result with
      | error e => rfl
      | ok report =>
        by_cases hzero : report.leased = 0
        · simp only [Prod.map, id, if_pos hzero]
        · simp only [Prod.map, id, if_neg hzero, ih]
          cases drain tuning clock max (n + 1) after with
          | mk reports last => cases reports <;> rfl

end Registry

end Onboarding
