import Onboarding.Collaborator
import Onboarding.Json.Printer

namespace Onboarding

structure ClaimPolicy where
  claim : String := "gaiaXMember"
  expected : Json := .string "true"

namespace ClaimPolicy

def subjectClaim? (p : ClaimPolicy) (credential : Json) : Option Json :=
  ((credential.field? "vc").bind (·.field? "credentialSubject")).bind (·.field? p.claim)

def searchCredentials (p : ClaimPolicy) : List (String × Json) → Bool × List Mismatch
  -- Credentials with another value are noted up to the one that has the expected value.
  | [] => (false, [])
  | (key, credential) :: rest =>
    match p.subjectClaim? credential with
    | none => p.searchCredentials rest
    | some found =>
      if found.same p.expected then (true, [])
      else
        let (allowed, mismatches) := p.searchCredentials rest
        (allowed, ⟨key, p.claim⟩ :: mismatches)

def isDirect (p : ClaimPolicy) (claims : ClaimSet) : Bool :=
  (claims.get? p.claim).any (·.same p.expected)

def denial (p : ClaimPolicy) : String :=
  "no verified claim " ++ p.claim ++ " = " ++ p.expected.compact

def evaluate (p : ClaimPolicy) (claims : ClaimSet) : Decision × List Mismatch :=
  if p.isDirect claims then (.allow, [])
  else
    let (allowed, mismatches) := p.searchCredentials claims.entries
    (if allowed then .allow else .deny p.denial, mismatches)

def decide (p : ClaimPolicy) (claims : ClaimSet) : Decision := (p.evaluate claims).1

end ClaimPolicy

end Onboarding
