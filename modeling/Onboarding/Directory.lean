import Onboarding.Collaborator
import Onboarding.Policy

namespace Onboarding

structure Directory where
  -- Of two entries the first counts.
  entries : List (String × Bool) := []
  isOpen : Bool := false

namespace Directory

def withEntry (d : Directory) (did : String) (member : Bool) : Directory :=
  { d with entries := (did, member) :: d.entries }

def membership? (d : Directory) (did : Did) : Option Bool :=
  match Json.lookup did.text d.entries with
  | some member => some member
  | none => if d.isOpen then some true else none

def membershipClaims (did : Did) (member : Bool) : ClaimSet :=
  .ofList [(did.text ++ "#membership", .object [("vc", .object [
    ("credentialSubject", .object [
      ("gaiaXMember", .string (if member then "true" else "false")),
      ("id", did.toJson)]),
    ("issuer", .string "did:web:registry.local")])])]

def resolve (d : Directory) (did : Did) : Except VerificationError IdentityDescriptor :=
  match d.membership? did with
  | none => .error .notFound
  | some member => .ok {
      did := did
      verificationMethods := [did.text ++ "#key-1"]
      credentialsEndpoint := none
      presentedClaims := membershipClaims did member }

def verify (id : ParticipantId) (claims : ClaimSet) : Except VerificationError VerifiedClaims :=
  if claims.entries.isEmpty then .error (.invalid "no credentials presented")
  else
    match claims.entries.find? fun e => (e.2.field? "vc").isNone with
    | some (name, _) => .error (.invalid (name ++ " is not a verifiable credential"))
    | none => .ok ⟨id, claims⟩

end Directory

structure Desk where
  directory : Directory := { isOpen := true }
  policy : ClaimPolicy := {}

instance : Collaborators Desk where
  resolveIdentity d did := ({ result := d.directory.resolve did }, d)
  verifyCredentials d id claims := ({ result := Directory.verify id claims }, d)
  evaluatePolicy d claims :=
    let (decision, mismatches) := d.policy.evaluate claims.claims
    ({ result := .ok decision, mismatches }, d)

end Onboarding
