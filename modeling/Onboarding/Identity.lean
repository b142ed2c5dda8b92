import Onboarding.Did
import Onboarding.Json.Basic

namespace Onboarding

structure ParticipantId where
  text : String
deriving DecidableEq

namespace ParticipantId

instance : ToString ParticipantId := ⟨text⟩

def toJson (id : ParticipantId) : Json := .string id.text

def ofJson? (v : Json) : Option ParticipantId := v.string?.map ParticipantId.mk

end ParticipantId

namespace Did

def toJson (d : Did) : Json := .string d.text

def ofJson? (v : Json) : Option Did :=
  match v with
  | .string s => (parse s).toOption
  | _ => none

end Did

structure ClaimSet where
  entries : List (String × Json)
  ordered : entries.Pairwise fun a b => a.1 < b.1

namespace ClaimSet

def ofList (entries : List (String × Json)) : ClaimSet :=
  -- Of claims with one name, the last counts.
  ⟨Json.ordered entries, Json.pairwise_ordered entries⟩

def get? (c : ClaimSet) (name : String) : Option Json := Json.lookup name c.entries

def toJson (c : ClaimSet) : Json := .object c.entries

def ofJson? : Json → Option ClaimSet
  | .object fields => some (ofList fields)
  | _ => none

end ClaimSet

structure IdentityDescriptor where
  -- The claims that are presented are not verified.
  did : Did
  verificationMethods : List String
  credentialsEndpoint : Option String
  presentedClaims : ClaimSet

namespace IdentityDescriptor

def toJson (i : IdentityDescriptor) : Json :=
  -- An endpoint that is not known is left out.
  .object ([("did", i.did.toJson),
      ("verification_methods", .array (i.verificationMethods.map .string))] ++
    (match i.credentialsEndpoint with
      | some e => [("credentials_endpoint", .string e)]
      | none => []) ++
    [("presented_claims", i.presentedClaims.toJson)])

def ofJson? (v : Json) : Option IdentityDescriptor := do
  -- The endpoint may be missing or null.
  let did ← (v.part? 4 0 "did").bind Did.ofJson?
  let methods ← (v.part? 4 1 "verification_methods").bind Json.array?
  let methods ← methods.mapM Json.string?
  let endpoint ← Json.optional? Json.string? (v.part? 4 2 "credentials_endpoint")
  let claims ← (v.part? 4 3 "presented_claims").bind ClaimSet.ofJson?
  return ⟨did, methods, endpoint, claims⟩

end IdentityDescriptor

structure VerifiedClaims where
  participantId : ParticipantId
  claims : ClaimSet

namespace VerifiedClaims

def toJson (c : VerifiedClaims) : Json :=
  .object [("participant_id", c.participantId.toJson), ("claims", c.claims.toJson)]

def ofJson? (v : Json) : Option VerifiedClaims := do
  let id ← (v.part? 2 0 "participant_id").bind ParticipantId.ofJson?
  let claims ← (v.part? 2 1 "claims").bind ClaimSet.ofJson?
  return ⟨id, claims⟩

end VerifiedClaims

inductive Decision where
  | allow
  | deny (reason : String)
deriving DecidableEq

namespace Decision

def toJson : Decision → Json
  | .allow => .string "Allow"
  | .deny reason => .object [("Deny", .object [("reason", .string reason)])]

def ofJson? (v : Json) : Option Decision :=
  match v.variant? with
  | some ("Allow", .null) => some .allow
  | some ("Deny", .object fields) =>
    ((Json.lookup "reason" fields).bind Json.string?).map .deny
  | _ => none

end Decision

end Onboarding
