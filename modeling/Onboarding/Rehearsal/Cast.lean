import Onboarding.Directory

namespace Onboarding.Rehearsal

structure Cue (ε α : Type) where
  delay : Duration := .zero
  result : Option (Except ε α) := none

namespace Cue

variable {ε α : Type}

def reply (cue : Cue ε α) (usual : Reply ε α) : Reply ε α :=
  match cue.result with
  | some result => { result, elapsed := cue.delay }
  | none => { usual with elapsed := cue.delay + usual.elapsed }

end Cue

abbrev Script (ε α : Type) := List (String × Cue ε α)

namespace Script

variable {ε α : Type}

def adding (s : Script ε α) (key : String) (cues : List (Cue ε α)) (times : Nat) : Script ε α :=
  s ++ (List.replicate times cues).flatten.map fun cue => (key, cue)

def take (s : Script ε α) (key : String) : Cue ε α × Script ε α :=
  let isFor (k : String) (entry : String × Cue ε α) : Bool := entry.1 == k
  match s.find? (isFor key) with
  | some (_, cue) => (cue, s.eraseP (isFor key))
  | none =>
    match s.find? (isFor "*") with
    | some (_, cue) => (cue, s.eraseP (isFor "*"))
    | none => ({}, s)

end Script

structure Calls where
  identity : Nat := 0
  credentials : Nat := 0
  policy : Nat := 0
deriving DecidableEq

structure Cast where
  desk : Desk := {}
  identity : Script VerificationError IdentityDescriptor := []
  credentials : Script VerificationError VerifiedClaims := []
  policy : Script PolicyError Decision := []
  calls : Calls := {}

instance : Collaborators Cast where
  resolveIdentity c did :=
    let (cue, rest) := c.identity.take did.text
    (cue.reply (Collaborators.resolveIdentity c.desk did).1,
      { c with identity := rest, calls := { c.calls with identity := c.calls.identity + 1 } })
  verifyCredentials c id claims :=
    let (cue, rest) := c.credentials.take id.text
    (cue.reply (Collaborators.verifyCredentials c.desk id claims).1,
      { c with
        credentials := rest, calls := { c.calls with credentials := c.calls.credentials + 1 } })
  evaluatePolicy c claims :=
    let (cue, rest) := c.policy.take claims.participantId.text
    (cue.reply (Collaborators.evaluatePolicy c.desk claims).1,
      { c with policy := rest, calls := { c.calls with policy := c.calls.policy + 1 } })

end Onboarding.Rehearsal
