import Onboarding.State

namespace Onboarding

inductive Step where
  | pickUp
  | resolveIdentity
  | verifyCredentials
  | evaluatePolicy
deriving DecidableEq

def Step.label : Step → String
  | .pickUp => "pick_up"
  | .resolveIdentity => "resolve_identity"
  | .verifyCredentials => "verify_credentials"
  | .evaluatePolicy => "evaluate_policy"

structure Fallback where
  onTransient : State
  onPermanent : State
deriving DecidableEq

/-- The step of a state and the states that it leads to. A step that calls nobody cannot fail. -/
structure Route where
  state : State
  step : Step
  onSuccess : State
  onFailure : Option Fallback
deriving DecidableEq

namespace Route

def all : List Route := [
  ⟨.onboardingInitiated, .pickUp, .verifyingIdentity, none⟩,
  ⟨.verifyingIdentity, .resolveIdentity, .verifyingCredentials,
    some ⟨.onboardingInitiated, .verificationFailed⟩⟩,
  ⟨.verifyingCredentials, .verifyCredentials, .evaluatingPolicy,
    some ⟨.verifyingCredentials, .verificationFailed⟩⟩,
  ⟨.evaluatingPolicy, .evaluatePolicy, .onboarded,
    some ⟨.evaluatingPolicy, .policyDenied⟩⟩]

def of? (state : State) : Option Route := all.find? (·.state = state)

end Route

end Onboarding
