import Onboarding.Collaborator
import Onboarding.Outcome
import Onboarding.Record
import Onboarding.Tuning

namespace Onboarding

inductive Answer where
  | resolved (identity : IdentityDescriptor)
  | verified (claims : VerifiedClaims)
  | allowed
  | denied (detail : String)
  | failed (kind : FailureKind) (detail : String)

namespace Reply

variable {ε α : Type}

def isLate (r : Reply ε α) (tuning : Tuning) : Bool :=
  -- A reply in the millisecond in which the time is over does come in time.
  decide (tuning.callTimeout.millisUp < r.elapsed.millisUp)

def inTime (r : Reply ε α) (tuning : Tuning) (operation : String) (kind : ε → FailureKind)
    (message : ε → String) (answer : α → Answer) : Answer :=
  if r.isLate tuning then
    .failed .transient s!"{operation} timed out after {tuning.callTimeout.millis}ms"
  else
    match r.result with
    | .ok a => answer a
    | .error e => .failed (kind e) (message e)

end Reply

namespace Answer

def ofResolution (tuning : Tuning) (r : Reply VerificationError IdentityDescriptor) : Answer :=
  r.inTime tuning "identity resolution" VerificationError.kind VerificationError.message .resolved

def ofVerification (tuning : Tuning) (r : Reply VerificationError VerifiedClaims) : Answer :=
  r.inTime tuning "credential verification" VerificationError.kind VerificationError.message
    .verified

def ofDecision : Decision → Answer
  | .allow => .allowed
  | .deny reason => .denied ("policy denied membership: " ++ reason)

def ofEvaluation (tuning : Tuning) (r : Reply PolicyError Decision) : Answer :=
  r.inTime tuning "policy evaluation" PolicyError.kind PolicyError.message ofDecision

def noIdentity : Answer := .failed .permanent "identity descriptor missing from record"

def noClaims : Answer := .denied "no verified claims to evaluate"

end Answer

namespace Record

def succeed (r : Record) (route : Route) (now : Instant) :
    Except TransitionError (Outcome × Record) :=
  (r.advance route.onSuccess now).map fun next => (.advanced r.state route.onSuccess, next)

def giveUp (r : Record) (target : State) (detail : String) (now : Instant) :
    Except TransitionError (Outcome × Record) :=
  (r.fail target detail now).map fun next => (.failed r.state target detail, next)

def failures (r : Record) : Nat :=
  -- The count stops at the greatest one.
  min (r.retryCount + 1) Number.max32

def retryOrGiveUp (r : Record) (tuning : Tuning) (step : Step) (fallback : Fallback)
    (detail : String) (now : Instant) : Except TransitionError (Outcome × Record) :=
  let attempt := r.failures
  if tuning.budgets.isExhausted step attempt then
    { r with retryCount := attempt }.giveUp fallback.onPermanent
      s!"retry budget exhausted after {attempt} attempts: {detail}" now
  else
    let due := tuning.backoff.retryAt now attempt
    (r.scheduleRetry fallback.onTransient detail due now).map fun next =>
      (.retryScheduled fallback.onTransient attempt due, next)

def settle (r : Record) (tuning : Tuning) (route : Route) (answer : Answer) (now : Instant) :
    Except TransitionError (Outcome × Record) :=
  match answer with
  | .resolved identity => { r with identity := some identity }.succeed route now
  | .verified claims => { r with verifiedClaims := some claims }.succeed route now
  | .allowed => r.succeed route now
  | .denied detail => r.giveUp .policyDenied detail now
  | .failed kind detail =>
    match route.onFailure, kind with
    | none, _ => .error ⟨r.state, r.state⟩
    | some fallback, .permanent => r.giveUp fallback.onPermanent detail now
    | some fallback, .transient => r.retryOrGiveUp tuning route.step fallback detail now

def begin (r : Record) (now : Instant) : Except TransitionError (Outcome × Record) :=
  (r.pickUp now).map fun next => (.advanced r.state next.state, next)

end Record

end Onboarding
