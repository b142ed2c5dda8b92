import Onboarding.Proofs.Course

/-!
Services that have made up their mind: what they say for good about a participant is fixed, though
any single call may fail and may have to be repeated. The reference is what becomes of a
registration where no call fails.
-/

namespace Onboarding

/-- What is said for good about participants. The errors among it are no passing failures. -/
structure Verdicts where
  resolve : Did → Except VerificationError IdentityDescriptor
  verify : ParticipantId → ClaimSet → Except VerificationError VerifiedClaims
  evaluate : VerifiedClaims → Decision
  resolve_permanent : ∀ did e, resolve did = .error e → e.kind = .permanent
  verify_permanent : ∀ id claims e, verify id claims = .error e → e.kind = .permanent

structure Ending where
  state : State
  errorDetail : Option String
  identity : Option IdentityDescriptor
  verifiedClaims : Option VerifiedClaims

def Record.ending (r : Record) : Ending := ⟨r.state, r.errorDetail, r.identity, r.verifiedClaims⟩

/-- The end of a registration in which each question is asked once and answered for good. -/
def Verdicts.reference (verdicts : Verdicts) (id : ParticipantId) (did : Did) : Ending :=
  match verdicts.resolve did with
  | .error e => ⟨.verificationFailed, some e.message, none, none⟩
  | .ok identity =>
    match verdicts.verify id identity.presentedClaims with
    | .error e => ⟨.verificationFailed, some e.message, some identity, none⟩
    | .ok claims =>
      match verdicts.evaluate claims with
      | .deny reason =>
        ⟨.policyDenied, some ("policy denied membership: " ++ reason), some identity, some claims⟩
      | .allow => ⟨.onboarded, none, some identity, some claims⟩

namespace Reply

variable {ε α : Type}

def Honours (reply : Reply ε α) (tuning : Tuning) (kind : ε → FailureKind)
    (verdict : Except ε α) : Prop :=
  reply.isLate tuning = true ∨ reply.result = verdict ∨
    ∃ e, reply.result = .error e ∧ kind e = .transient

variable {reply : Reply ε α} {tuning : Tuning} {kind : ε → FailureKind} {verdict : Except ε α}

/-- A success that comes in time is the verdict. -/
theorem Honours.eq_ok {a : α} (h : reply.Honours tuning kind verdict)
    (hb : reply.Brings tuning a) : verdict = .ok a := by
  obtain ⟨hlate, hresult⟩ := hb
  rcases h with h | h | ⟨e, he, -⟩
  · rw [hlate] at h
    cases h
  · rw [← h, hresult]
  · rw [hresult] at he
    cases he

theorem Honours.eq_error {operation detail : String} {message : ε → String} {answer : α → Answer}
    (h : reply.Honours tuning kind verdict)
    (hp : reply.inTime tuning operation kind message answer = .failed .permanent detail)
    (hanswer : ∀ a, answer a ≠ .failed .permanent detail) :
    ∃ e, verdict = .error e ∧ kind e = .permanent ∧ message e = detail := by
  rcases reply.inTime_cases tuning operation kind message answer with
    ⟨a, -, ha⟩ | ⟨e, ⟨hlate, hresult⟩, ha⟩ | ⟨-, late, ha⟩
  · rw [ha] at hp
    exact absurd hp (hanswer a)
  · rw [ha] at hp
    obtain ⟨hkind, hmessage⟩ := Answer.failed.inj hp
    refine ⟨e, ?_, hkind, hmessage⟩
    rcases h with h | h | ⟨e', he', hkind'⟩
    · rw [hlate] at h
      cases h
    · rw [← h, hresult]
    · rw [hresult] at he'
      cases he'
      rw [hkind] at hkind'
      cases hkind'
  · rw [ha] at hp
    cases hp

end Reply

/-- Whatever state the services are in, they reply with these verdicts, or fail in passing. -/
structure Verdicts.Govern (verdicts : Verdicts) (κ : Type) [Collaborators κ] (tuning : Tuning) :
    Prop where
  resolve : ∀ (k : κ) (did : Did), (Collaborators.resolveIdentity k did).1.Honours tuning
    VerificationError.kind (verdicts.resolve did)
  verify : ∀ (k : κ) (id : ParticipantId) (claims : ClaimSet),
    (Collaborators.verifyCredentials k id claims).1.Honours tuning VerificationError.kind
      (verdicts.verify id claims)
  evaluate : ∀ (k : κ) (claims : VerifiedClaims),
    (Collaborators.evaluatePolicy k claims).1.Honours tuning PolicyError.kind
      (.ok (verdicts.evaluate claims))

structure Bureau (verdicts : Verdicts) where
  elapsed : Duration := .zero

instance (verdicts : Verdicts) : Collaborators (Bureau verdicts) where
  resolveIdentity k did := ({ result := verdicts.resolve did, elapsed := k.elapsed }, k)
  verifyCredentials k id claims :=
    ({ result := verdicts.verify id claims, elapsed := k.elapsed }, k)
  evaluatePolicy k claims := ({ result := .ok (verdicts.evaluate claims), elapsed := k.elapsed }, k)

theorem Verdicts.govern_bureau (verdicts : Verdicts) (tuning : Tuning) :
    verdicts.Govern (Bureau verdicts) tuning := by
  constructor
  · intro k did
    exact Or.inr (Or.inl rfl)
  · intro k id claims
    exact Or.inr (Or.inl rfl)
  · intro k claims
    exact Or.inr (Or.inl rfl)

def Verdicts.welcome : Verdicts where
  resolve did := .ok ⟨did, [], none, .ofList []⟩
  verify id claims := .ok ⟨id, claims⟩
  evaluate _ := .allow
  resolve_permanent _ _ h := by cases h
  verify_permanent _ _ _ h := by cases h

end Onboarding
