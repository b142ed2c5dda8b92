import Onboarding.Advance
import Onboarding.Proofs.Change

/-!
Attempts. A step of a record is cut in two where others may come in between: the attempt, which
ends with the answer to the question of the step, and the write of its result. The courses that an
attempt may take say what is asked, what is answered and what becomes of the record.
-/

namespace Onboarding

namespace Reply

variable {ε α : Type}

def Brings (reply : Reply ε α) (tuning : Tuning) (a : α) : Prop :=
  reply.isLate tuning = false ∧ reply.result = .ok a

def Refuses (reply : Reply ε α) (tuning : Tuning) (e : ε) : Prop :=
  reply.isLate tuning = false ∧ reply.result = .error e

/-- A reply in time that is a success is taken for what it brings. -/
theorem Brings.inTime_eq {reply : Reply ε α} {tuning : Tuning} {a : α} {kind : ε → FailureKind}
    (h : reply.Brings tuning a) (operation : String) (message : ε → String) (answer : α → Answer) :
    reply.inTime tuning operation kind message answer = answer a := by
  rw [inTime, h.1, h.2]
  rfl

/-- A reply is a success in time, a refusal in time, or too late. -/
theorem inTime_cases (reply : Reply ε α) (tuning : Tuning) (operation : String)
    (kind : ε → FailureKind) (message : ε → String) (answer : α → Answer) :
    (∃ a, reply.Brings tuning a ∧
      reply.inTime tuning operation kind message answer = answer a) ∨
    (∃ e, reply.Refuses tuning e ∧
      reply.inTime tuning operation kind message answer = .failed (kind e) (message e)) ∨
    (reply.isLate tuning = true ∧ ∃ detail,
      reply.inTime tuning operation kind message answer = .failed .transient detail) := by
  unfold inTime
  cases hl : reply.isLate tuning with
  | true => exact Or.inr (Or.inr ⟨rfl, _, rfl⟩)
  | false =>
    cases hr : reply.result with
    | ok a => exact Or.inl ⟨a, ⟨hl, hr⟩, rfl⟩
    | error e => exact Or.inr (Or.inl ⟨e, ⟨hl, hr⟩, rfl⟩)

end Reply

inductive Call where
  | resolution (did : Did) (reply : Reply VerificationError IdentityDescriptor)
  | verification (id : ParticipantId) (claims : ClaimSet)
      (reply : Reply VerificationError VerifiedClaims)
  | evaluation (claims : VerifiedClaims) (reply : Reply PolicyError Decision)

namespace Call

def answer (tuning : Tuning) : Call → Answer
  | .resolution _ reply => .ofResolution tuning reply
  | .verification _ _ reply => .ofVerification tuning reply
  | .evaluation _ reply => .ofEvaluation tuning reply

def IsAbout (r : Record) : Call → Prop
  | .resolution did _ => r.state = .verifyingIdentity ∧ did = r.did
  | .verification id claims _ => r.state = .verifyingCredentials ∧ id = r.id ∧
      ∃ identity, r.identity = some identity ∧ claims = identity.presentedClaims
  | .evaluation claims _ => r.state = .evaluatingPolicy ∧ r.verifiedClaims = some claims

def IsReplyOf {κ : Type} [Collaborators κ] (k : κ) : Call → Prop
  | .resolution did reply => reply = (Collaborators.resolveIdentity k did).1
  | .verification id claims reply => reply = (Collaborators.verifyCredentials k id claims).1
  | .evaluation claims reply => reply = (Collaborators.evaluatePolicy k claims).1

end Call

/-- A step of a record up to its write: the record as it was read, the call, what becomes of the
record if the write succeeds, and the record that is to replace it. -/
structure Attempt where
  read : Record
  now : Instant
  route : Route
  call : Option Call
  outcome : Outcome
  next : Record

namespace Attempt

def written (a : Attempt) : Record :=
  -- What is stored if the write succeeds.
  { a.next with version := a.read.version + 1 }

@[simp] theorem written_state (a : Attempt) : a.written.state = a.next.state := rfl

@[simp] theorem written_retryCount (a : Attempt) : a.written.retryCount = a.next.retryCount := rfl

@[simp] theorem written_errorDetail (a : Attempt) :
    a.written.errorDetail = a.next.errorDetail := rfl

@[simp] theorem written_identity (a : Attempt) : a.written.identity = a.next.identity := rfl

@[simp] theorem written_verifiedClaims (a : Attempt) :
    a.written.verifiedClaims = a.next.verifiedClaims := rfl

/-- The courses that an attempt may take. The two without what the question is about call nobody,
and so does a new start. -/
inductive Course (tuning : Tuning) (a : Attempt) : Prop
  | begun (hs : a.read.state = .onboardingInitiated) (hc : a.call = none)
      (ho : a.outcome = .advanced a.read.state .verifyingIdentity)
      (hn : a.next = a.read.moved .verifyingIdentity a.now)
  | resolved (reply : Reply VerificationError IdentityDescriptor) (identity : IdentityDescriptor)
      (hs : a.read.state = .verifyingIdentity)
      (hc : a.call = some (.resolution a.read.did reply)) (hb : reply.Brings tuning identity)
      (ho : a.outcome = .advanced a.read.state .verifyingCredentials)
      (hn : a.next =
        { a.read with identity := some identity }.passed .verifyingCredentials a.now)
  | verified (identity : IdentityDescriptor) (reply : Reply VerificationError VerifiedClaims)
      (claims : VerifiedClaims) (hs : a.read.state = .verifyingCredentials)
      (hi : a.read.identity = some identity)
      (hc : a.call = some (.verification a.read.id identity.presentedClaims reply))
      (hb : reply.Brings tuning claims)
      (ho : a.outcome = .advanced a.read.state .evaluatingPolicy)
      (hn : a.next =
        { a.read with verifiedClaims := some claims }.passed .evaluatingPolicy a.now)
  | allowed (claims : VerifiedClaims) (reply : Reply PolicyError Decision)
      (hs : a.read.state = .evaluatingPolicy) (hv : a.read.verifiedClaims = some claims)
      (hc : a.call = some (.evaluation claims reply)) (hb : reply.Brings tuning .allow)
      (ho : a.outcome = .advanced a.read.state .onboarded)
      (hn : a.next = a.read.passed .onboarded a.now)
  | denied (claims : VerifiedClaims) (reply : Reply PolicyError Decision) (reason : String)
      (hs : a.read.state = .evaluatingPolicy) (hv : a.read.verifiedClaims = some claims)
      (hc : a.call = some (.evaluation claims reply)) (hb : reply.Brings tuning (.deny reason))
      (ho : a.outcome =
        .failed a.read.state .policyDenied ("policy denied membership: " ++ reason))
      (hn : a.next =
        a.read.ended .policyDenied ("policy denied membership: " ++ reason) a.now)
  | withoutIdentity (hs : a.read.state = .verifyingCredentials) (hi : a.read.identity = none)
      (hc : a.call = none)
      (ho : a.outcome = .failed a.read.state .verificationFailed
        "identity descriptor missing from record")
      (hn : a.next = a.read.ended .verificationFailed
        "identity descriptor missing from record" a.now)
  | withoutClaims (hs : a.read.state = .evaluatingPolicy) (hv : a.read.verifiedClaims = none)
      (hc : a.call = none)
      (ho : a.outcome = .failed a.read.state .policyDenied "no verified claims to evaluate")
      (hn : a.next = a.read.ended .policyDenied "no verified claims to evaluate" a.now)
  | refused (call : Call) (fallback : Fallback) (detail : String) (hc : a.call = some call)
      (hq : call.IsAbout a.read) (hf : a.route.onFailure = some fallback)
      (ha : call.answer tuning = .failed .permanent detail)
      (ho : a.outcome = .failed a.read.state fallback.onPermanent detail)
      (hn : a.next = a.read.ended fallback.onPermanent detail a.now)
  | exhausted (call : Call) (fallback : Fallback) (detail : String) (hc : a.call = some call)
      (hq : call.IsAbout a.read) (hf : a.route.onFailure = some fallback)
      (ha : call.answer tuning = .failed .transient detail)
      (hx : tuning.budgets.isExhausted a.route.step a.read.failures = true)
      (ho : a.outcome = .failed a.read.state fallback.onPermanent
        (Record.exhaustion a.read.failures detail))
      (hn : a.next = { a.read with retryCount := a.read.failures }.ended fallback.onPermanent
        (Record.exhaustion a.read.failures detail) a.now)
  | deferred (call : Call) (fallback : Fallback) (detail : String) (hc : a.call = some call)
      (hq : call.IsAbout a.read) (hf : a.route.onFailure = some fallback)
      (ha : call.answer tuning = .failed .transient detail)
      (hx : ¬tuning.budgets.isExhausted a.route.step a.read.failures = true)
      (ho : a.outcome = .retryScheduled fallback.onTransient a.read.failures
        (tuning.backoff.retryAt a.now a.read.failures))
      (hn : a.next = a.read.deferred fallback.onTransient detail
        (tuning.backoff.retryAt a.now a.read.failures) a.now)

/-- The attempt follows the route of the record's state, takes one of the courses, and what it was
told is a reply of the services in some state of theirs. -/
structure IsGenuine (κ : Type) [Collaborators κ] (tuning : Tuning) (a : Attempt) : Prop where
  routed : Route.of? a.read.state = some a.route
  course : a.Course tuning
  replied : ∀ call ∈ a.call, ∃ k : κ, call.IsReplyOf k

end Attempt

end Onboarding
