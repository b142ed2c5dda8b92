import Onboarding.Attempt
import Onboarding.Registry

namespace Onboarding

namespace Registry

variable {σ κ : Type}

def await {ε α : Type} (reg : Registry σ κ) (tuning : Tuning) (r : Reply ε α)
    (collaborators : κ) : Registry σ κ :=
  -- What the services noted counts only if the reply came in time.
  { reg with
    collaborators := collaborators
    events := reg.events ++ if r.isLate tuning then [] else r.mismatches.map .claimMismatch
    waited := reg.waited + min r.elapsed.millisUp tuning.callTimeout.millisUp }

def ask [Collaborators κ] (reg : Registry σ κ) (tuning : Tuning) (r : Record) :
    Step → Option Answer × Registry σ κ
  -- A record that lacks what the question is about is answered without a call.
  | .pickUp => (none, reg)
  | .resolveIdentity =>
    let (reply, κ') := Collaborators.resolveIdentity reg.collaborators r.did
    (some (.ofResolution tuning reply), reg.await tuning reply κ')
  | .verifyCredentials =>
    match r.identity with
    | none => (some .noIdentity, reg)
    | some identity =>
      let (reply, κ') :=
        Collaborators.verifyCredentials reg.collaborators r.id identity.presentedClaims
      (some (.ofVerification tuning reply), reg.await tuning reply κ')
  | .evaluatePolicy =>
    match r.verifiedClaims with
    | none => (some .noClaims, reg)
    | some claims =>
      let (reply, κ') := Collaborators.evaluatePolicy reg.collaborators claims
      (some (.ofEvaluation tuning reply), reg.await tuning reply κ')

def committedEvents (r : Record) (step : Step) : Outcome → List Event
  | .advanced source target => [.advanced r.id r.did source target]
  | .retryScheduled state attempt due =>
    [.retryScheduled r.id step state attempt due (r.errorDetail.getD "")]
  | .failed source target detail => [.failed r.id r.did source target detail]
  | .conflict | .skipped => []

def commit [RecordStore σ] (reg : Registry σ κ) (read next : Record) (step : Step)
    (outcome : Outcome) : Except StoreError Outcome × Registry σ κ :=
  match RecordStore.compareAndSwap reg.store next read.version with
  | (.ok committed, store) =>
    (.ok outcome, { reg with store := store }.note (committedEvents committed step outcome))
  | (.error (.conflict _ expected found), store) =>
    (.ok .conflict, { reg with store := store }.note [.swapLost read.id expected found])
  | (.error (.notFound id), store) =>
    (.ok .skipped, { reg with store := store }.note [.vanished id])
  | (.error e, store) => (.error e, { reg with store := store })

/-- Takes one step with a record as it was read. -/
def advance [RecordStore σ] [Collaborators κ] (reg : Registry σ κ) (tuning : Tuning) (r : Record)
    (now : Instant) : Except StoreError Outcome × Registry σ κ :=
  match Route.of? r.state with
  | none => (.ok .skipped, reg)
  | some route =>
    let (answer?, reg) := reg.ask tuning r route.step
    let result :=
      match answer? with
      | none => r.begin now
      | some answer => r.settle tuning route answer now
    match result with
    | .error e => (.ok .skipped, reg.note [.illegalTransition r.id route.step e])
    | .ok (outcome, next) => reg.commit r next route.step outcome

end Registry

end Onboarding
