import Onboarding.Identity
import Onboarding.Instant.Duration
import Onboarding.Retry

namespace Onboarding

inductive VerificationError where
  | notFound
  | rejected (detail : String)
  | invalid (detail : String)
  | unreachable (detail : String)
  | timeout
deriving DecidableEq

namespace VerificationError

def message : VerificationError → String
  | .notFound => "identity not found"
  | .rejected detail => "identity rejected: " ++ detail
  | .invalid detail => "credentials invalid: " ++ detail
  | .unreachable detail => "verification service unreachable: " ++ detail
  | .timeout => "verification call timed out"

def kind : VerificationError → FailureKind
  | .notFound | .rejected _ | .invalid _ => .permanent
  | .unreachable _ | .timeout => .transient

end VerificationError

inductive PolicyError where
  | unreachable (detail : String)
  | timeout
deriving DecidableEq

namespace PolicyError

def message : PolicyError → String
  | .unreachable detail => "policy engine unreachable: " ++ detail
  | .timeout => "policy evaluation timed out"

def kind : PolicyError → FailureKind
  | .unreachable _ | .timeout => .transient

end PolicyError

structure Mismatch where
  credential : String
  claim : String
deriving DecidableEq

structure Reply (ε α : Type) where
  result : Except ε α
  elapsed : Duration := .zero
  mismatches : List Mismatch := []

/-- Services with a state of their own, which each call may change. -/
class Collaborators (κ : Type) where
  resolveIdentity : κ → Did → Reply VerificationError IdentityDescriptor × κ
  verifyCredentials : κ → ParticipantId → ClaimSet → Reply VerificationError VerifiedClaims × κ
  evaluatePolicy : κ → VerifiedClaims → Reply PolicyError Decision × κ

end Onboarding
