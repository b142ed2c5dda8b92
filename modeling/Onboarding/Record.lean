import Onboarding.Identity
import Onboarding.Instant.Text
import Onboarding.State

namespace Onboarding

open Number

namespace State

def toJson (s : State) : Json := .string s.label

def ofJson? (v : Json) : Option State := v.plainVariant? all label

end State

namespace Status

def toJson (s : Status) : Json := .string s.label

def ofJson? (v : Json) : Option Status := v.plainVariant? all label

end Status

namespace Instant

def toJson (t : Instant) : Json := .string t.text

def ofJson? (v : Json) : Option Instant := v.string?.bind ofText?

end Instant

/-- The record of a registration. `nextAttemptAt` is the end of its current wait, and `version`
counts the changes that were stored. -/
structure Record where
  id : ParticipantId
  did : Did
  state : State
  stateTimestamp : Instant
  retryCount : Nat
  errorDetail : Option String
  nextAttemptAt : Instant
  identity : Option IdentityDescriptor
  verifiedClaims : Option VerifiedClaims
  createdAt : Instant
  version : Nat

structure View where
  id : ParticipantId
  did : Did
  status : Status
  state : State
  errorDetail : Option String
  retryCount : Nat
  stateTimestamp : Instant

namespace Record

def new (id : ParticipantId) (did : Did) (now : Instant) : Record where
  id := id
  did := did
  state := .onboardingInitiated
  stateTimestamp := now
  retryCount := 0
  errorDetail := none
  nextAttemptAt := now
  identity := none
  verifiedClaims := none
  createdAt := now
  version := 0

def moveTo (r : Record) (target : State) (now : Instant) : Except TransitionError Record :=
  if target ∈ r.state.successors then
    .ok { r with state := target, stateTimestamp := now, nextAttemptAt := now }
  else .error ⟨r.state, target⟩

def pickUp (r : Record) (now : Instant) : Except TransitionError Record :=
  -- The count of failed attempts stays, so that a new start does not refill the budget.
  r.moveTo .verifyingIdentity now

def advance (r : Record) (target : State) (now : Instant) : Except TransitionError Record :=
  -- The failed attempts are forgotten.
  (r.moveTo target now).map fun r => { r with retryCount := 0, errorDetail := none }

def fail (r : Record) (target : State) (detail : String) (now : Instant) :
    Except TransitionError Record :=
  -- The count of failed attempts stays.
  if target.isFailure then
    (r.moveTo target now).map fun r => { r with errorDetail := some detail }
  else .error ⟨r.state, target⟩

def scheduleRetry (r : Record) (target : State) (detail : String) (nextAttemptAt now : Instant) :
    Except TransitionError Record :=
  (r.moveTo target now).map fun r =>
    { r with
      retryCount := r.retryCount + 1
      errorDetail := some detail
      nextAttemptAt := nextAttemptAt }

def isStalled (r : Record) (now : Instant) (threshold : Duration) : Bool :=
  !r.state.isTerminal && (threshold.nanoseconds : Int) < now.since r.stateTimestamp

def view (r : Record) : View where
  id := r.id
  did := r.did
  status := r.state.status
  state := r.state
  errorDetail := r.errorDetail
  retryCount := r.retryCount
  stateTimestamp := r.stateTimestamp

def orNull {α : Type} (write : α → Json) : Option α → Json
  -- A value that is absent is written as null.
  | some a => write a
  | none => .null

def toJson (r : Record) : Json := .object [
  ("participant_id", r.id.toJson),
  ("did", r.did.toJson),
  ("state", r.state.toJson),
  ("state_timestamp", r.stateTimestamp.toJson),
  ("retry_count", .int r.retryCount),
  ("error_detail", orNull .string r.errorDetail),
  ("next_attempt_at", r.nextAttemptAt.toJson),
  ("identity", orNull IdentityDescriptor.toJson r.identity),
  ("verified_claims", orNull VerifiedClaims.toJson r.verifiedClaims),
  ("created_at", r.createdAt.toJson),
  ("version", .int r.version)]

def ofJson? (v : Json) : Option Record := do
  -- What may be absent may be missing or null; other fields do not matter.
  let id ← (v.part? 11 0 "participant_id").bind ParticipantId.ofJson?
  let did ← (v.part? 11 1 "did").bind Did.ofJson?
  let state ← (v.part? 11 2 "state").bind State.ofJson?
  let stateTimestamp ← (v.part? 11 3 "state_timestamp").bind Instant.ofJson?
  let retryCount ← (v.part? 11 4 "retry_count").bind (Json.nat? max32)
  let errorDetail ← Json.optional? Json.string? (v.part? 11 5 "error_detail")
  let nextAttemptAt ← (v.part? 11 6 "next_attempt_at").bind Instant.ofJson?
  let identity ← Json.optional? IdentityDescriptor.ofJson? (v.part? 11 7 "identity")
  let verifiedClaims ← Json.optional? VerifiedClaims.ofJson? (v.part? 11 8 "verified_claims")
  let createdAt ← (v.part? 11 9 "created_at").bind Instant.ofJson?
  let version ← (v.part? 11 10 "version").bind (Json.nat? max64)
  return { id, did, state, stateTimestamp, retryCount, errorDetail, nextAttemptAt, identity,
           verifiedClaims, createdAt, version }

end Record

namespace View

def toJson (v : View) : Json :=
  -- A detail that there is not is left out.
  .object ([("participant_id", v.id.toJson), ("did", v.did.toJson), ("status", v.status.toJson),
      ("state", v.state.toJson)] ++
    (match v.errorDetail with
      | some d => [("error_detail", .string d)]
      | none => []) ++
    [("retry_count", .int v.retryCount), ("state_timestamp", v.stateTimestamp.toJson)])

def ofJson? (v : Json) : Option View := do
  -- The detail may be missing or null.
  let id ← (v.part? 7 0 "participant_id").bind ParticipantId.ofJson?
  let did ← (v.part? 7 1 "did").bind Did.ofJson?
  let status ← (v.part? 7 2 "status").bind Status.ofJson?
  let state ← (v.part? 7 3 "state").bind State.ofJson?
  let errorDetail ← Json.optional? Json.string? (v.part? 7 4 "error_detail")
  let retryCount ← (v.part? 7 5 "retry_count").bind (Json.nat? max32)
  let stateTimestamp ← (v.part? 7 6 "state_timestamp").bind Instant.ofJson?
  return { id, did, status, state, errorDetail, retryCount, stateTimestamp }

end View

end Onboarding
