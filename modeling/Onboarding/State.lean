import Onboarding.Text.Blank
import Onboarding.Text.Folding

namespace Onboarding

inductive Status where
  | onboardingInProgress
  | onboarded
  | denied
deriving DecidableEq

namespace Status

def all : List Status := [.onboardingInProgress, .onboarded, .denied]

theorem mem_all (s : Status) : s ∈ all := by
  cases s <;> decide

def label : Status → String
  | .onboardingInProgress => "ONBOARDING_IN_PROGRESS"
  | .onboarded => "ONBOARDED"
  | .denied => "DENIED"

def name : Status → String
  | .onboardingInProgress => "OnboardingInProgress"
  | .onboarded => "Onboarded"
  | .denied => "Denied"

end Status

inductive State where
  | onboardingInitiated
  | verifyingIdentity
  | verifyingCredentials
  | evaluatingPolicy
  | onboarded
  | policyDenied
  | verificationFailed
deriving DecidableEq

namespace State

def all : List State :=
  [.onboardingInitiated, .verifyingIdentity, .verifyingCredentials, .evaluatingPolicy,
    .onboarded, .policyDenied, .verificationFailed]

theorem mem_all (s : State) : s ∈ all := by
  cases s <;> decide

def label : State → String
  | .onboardingInitiated => "ONBOARDING_INITIATED"
  | .verifyingIdentity => "VERIFYING_IDENTITY"
  | .verifyingCredentials => "VERIFYING_CREDENTIALS"
  | .evaluatingPolicy => "EVALUATING_POLICY"
  | .onboarded => "ONBOARDED"
  | .policyDenied => "POLICY_DENIED"
  | .verificationFailed => "VERIFICATION_FAILED"

instance : ToString State := ⟨label⟩

def ofLabel? (raw : String) : Option State :=
  all.find? fun s => Text.sameFolded s.label (Text.trimmed raw)

def successors : State → List State
  | .onboardingInitiated => [.verifyingIdentity]
  | .verifyingIdentity => [.verifyingCredentials, .verificationFailed, .onboardingInitiated]
  | .verifyingCredentials => [.evaluatingPolicy, .verificationFailed, .verifyingCredentials]
  | .evaluatingPolicy => [.onboarded, .policyDenied, .evaluatingPolicy]
  | .onboarded | .policyDenied | .verificationFailed => []

def isTerminal : State → Bool
  | .onboarded | .policyDenied | .verificationFailed => true
  | _ => false

def isFailure : State → Bool
  | .policyDenied | .verificationFailed => true
  | _ => false

def status : State → Status
  | .onboardingInitiated | .verifyingIdentity | .verifyingCredentials | .evaluatingPolicy =>
    .onboardingInProgress
  | .onboarded => .onboarded
  | .policyDenied | .verificationFailed => .denied

end State

structure TransitionError where
  source : State
  target : State
deriving DecidableEq

def TransitionError.message (e : TransitionError) : String :=
  s!"cannot transition from {e.source} to {e.target}"

end Onboarding
