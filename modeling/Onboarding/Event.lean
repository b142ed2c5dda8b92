import Onboarding.Collaborator
import Onboarding.Instant.Text
import Onboarding.Outcome
import Onboarding.Route
import Onboarding.Store

namespace Onboarding

inductive Level where
  | debug
  | info
  | warn
  | error
deriving DecidableEq

def Level.label : Level → String
  | .debug => "DEBUG"
  | .info => "INFO"
  | .warn => "WARN"
  | .error => "ERROR"

inductive Event where
  | submitted (id : ParticipantId) (did : Did)
  | advanced (id : ParticipantId) (did : Did) (source target : State)
  | retryScheduled (id : ParticipantId) (step : Step) (state : State) (attempt : Nat)
      (nextAttemptAt : Instant) (detail : String)
  | failed (id : ParticipantId) (did : Did) (source target : State) (detail : String)
  | stalled (id : ParticipantId) (state : State) (since : Instant) (retryCount : Nat)
  | swapLost (id : ParticipantId) (expected found : Nat)
  | vanished (id : ParticipantId)
  | illegalTransition (id : ParticipantId) (step : Step) (error : TransitionError)
  | claimMismatch (mismatch : Mismatch)
  | workerStarted (worker : Nat) (interval : Duration)
  | cycleComplete (worker : Nat) (report : CycleReport)
  | cycleAborted (worker : Nat) (error : StoreError)
  | workerStopped (worker : Nat)

namespace Event

def level : Event → Level
  -- A warning is about something that may right itself, an error about something that should not
  -- have happened.
  | .submitted .. | .advanced .. | .failed .. | .workerStarted .. | .workerStopped .. => .info
  | .retryScheduled .. | .stalled .. | .vanished .. => .warn
  | .swapLost .. | .claimMismatch .. | .cycleComplete .. => .debug
  | .illegalTransition .. | .cycleAborted .. => .error

def message : Event → String
  | .submitted .. => "registration submitted"
  | .advanced .. => "participant advanced"
  | .retryScheduled .. => "transient failure; retry scheduled"
  | .failed .. => "participant reached terminal failure"
  | .stalled .. => "registration stalled"
  | .swapLost .. => "lost compare-and-swap; discarding step result"
  | .vanished .. => "leased record disappeared before commit"
  | .illegalTransition .. => "step produced an illegal transition"
  | .claimMismatch .. => "claim value does not match"
  | .workerStarted .. => "registration worker started"
  | .cycleComplete .. => "registration cycle complete"
  | .cycleAborted .. => "registration cycle aborted"
  | .workerStopped .. => "registration worker stopped"

def count (n : Nat) : Json := .int n

def fields : Event → List (String × Json)
  | .submitted id did => [("participant_id", id.toJson), ("did", did.toJson)]
  | .advanced id did source target =>
    [("participant_id", id.toJson), ("did", did.toJson), ("from", source.toJson),
      ("to", target.toJson)]
  | .retryScheduled id step state attempt nextAttemptAt detail =>
    [("participant_id", id.toJson), ("step", .string step.label), ("state", state.toJson),
      ("attempt", count attempt), ("next_attempt_at", .string nextAttemptAt.logText),
      ("detail", .string detail)]
  | .failed id did source target detail =>
    [("participant_id", id.toJson), ("did", did.toJson), ("from", source.toJson),
      ("to", target.toJson), ("detail", .string detail)]
  | .stalled id state since retryCount =>
    [("participant_id", id.toJson), ("state", state.toJson), ("since", .string since.logText),
      ("retry_count", count retryCount)]
  | .swapLost id expected found =>
    [("participant_id", id.toJson), ("expected", count expected), ("found", count found)]
  | .vanished id => [("participant_id", id.toJson)]
  | .illegalTransition id step error =>
    [("participant_id", id.toJson), ("step", .string step.label), ("error", .string error.message)]
  | .claimMismatch mismatch =>
    [("credential", .string mismatch.credential), ("claim", .string mismatch.claim)]
  | .workerStarted worker interval =>
    [("worker", count worker), ("interval_ms", count interval.millis)]
  | .cycleComplete worker report =>
    [("worker", count worker), ("leased", count report.leased),
      ("advanced", count report.advanced), ("retried", count report.retried),
      ("failed", count report.failed), ("conflicts", count report.conflicts)]
  | .cycleAborted worker error => [("worker", count worker), ("error", .string error.message)]
  | .workerStopped worker => [("worker", count worker)]

def toJson (e : Event) : Json := .object [
  ("level", .string e.level.label),
  ("message", .string e.message),
  ("fields", .object e.fields)]

def isOfWorker : Event → Bool
  | .workerStarted .. | .cycleComplete .. | .cycleAborted .. | .workerStopped .. => true
  | _ => false

end Event

end Onboarding
