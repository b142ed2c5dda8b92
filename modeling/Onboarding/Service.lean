import Onboarding.Event
import Onboarding.Registry

namespace Onboarding

inductive ServiceError where
  | invalidDid (error : InvalidDid)
  | alreadyRegistered (did : Did) (id : ParticipantId) (state : State)
  | unknownDid (did : Did)
  | store (error : StoreError)
deriving DecidableEq

def ServiceError.message : ServiceError → String
  | .invalidDid e => e.message
  | .alreadyRegistered did id state => s!"{did} already has registration {id} in state {state}"
  | .unknownDid did => s!"no registration found for {did}"
  | .store e => e.message

namespace Registry

variable {σ κ : Type} [RecordStore σ]

def request {α : Type} (reg : Registry σ κ) (ask : σ → Except StoreError α × σ) :
    Except ServiceError α × Registry σ κ :=
  match ask reg.store with
  | (.ok a, store) => (.ok a, { reg with store := store })
  | (.error e, store) => (.error (.store e), { reg with store := store })

def register (reg : Registry σ κ) (r : Record) : Except ServiceError Record × Registry σ κ :=
  match reg.request (RecordStore.create · r) with
  | (.ok stored, reg) => (.ok stored, reg.note [.submitted stored.id stored.did])
  | (.error e, reg) => (.error e, reg)

/-- Submits a registration under a name that is not taken. A participant whose latest registration
goes on or has succeeded is refused; one that has failed may start over. -/
def submit (reg : Registry σ κ) (raw : String) (id : ParticipantId) (now : Instant) :
    Except ServiceError Record × Registry σ κ :=
  match Did.parse raw with
  | .error e => (.error (.invalidDid e), reg)
  | .ok did =>
    match reg.request (RecordStore.latest · did) with
    | (.error e, reg) => (.error e, reg)
    | (.ok none, reg) => reg.register (.new id did now)
    | (.ok (some existing), reg) =>
      if existing.state.isFailure then reg.register (.new id did now)
      else (.error (.alreadyRegistered did existing.id existing.state), reg)

def status (reg : Registry σ κ) (id : ParticipantId) : Except ServiceError View × Registry σ κ :=
  let (result, reg) := reg.request (RecordStore.get · id)
  (result.map Record.view, reg)

def lookUp (reg : Registry σ κ) (raw : String) : Except ServiceError View × Registry σ κ :=
  match Did.parse raw with
  | .error e => (.error (.invalidDid e), reg)
  | .ok did =>
    match reg.request (RecordStore.latest · did) with
    | (.error e, reg) => (.error e, reg)
    | (.ok none, reg) => (.error (.unknownDid did), reg)
    | (.ok (some r), reg) => (.ok r.view, reg)

def listing (reg : Registry σ κ) (state : Option State) :
    Except ServiceError (List View) × Registry σ κ :=
  let (result, reg) := reg.request (RecordStore.list · state)
  (result.map (·.map Record.view), reg)

def stalled (reg : Registry σ κ) (now : Instant) (threshold : Duration) :
    Except ServiceError (List View) × Registry σ κ :=
  let (result, reg) := reg.request (RecordStore.list · none)
  (result.map fun records => (records.filter (·.isStalled now threshold)).map Record.view, reg)

end Registry

end Onboarding
