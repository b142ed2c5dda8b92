import Onboarding.Http.Endpoint
import Onboarding.Http.Form
import Onboarding.Http.MediaType
import Onboarding.Http.Message
import Onboarding.Http.Submission
import Onboarding.ProgramError

namespace Onboarding.Http

/-- What a request is answered with beside the records: whether the program is ready, the name for
a new registration, the time, how long is too long for a state, and the figures of the program. -/
structure Site where
  isReady : Bool
  freshId : ParticipantId
  now : Instant
  stallThreshold : Duration
  metrics : String := ""

def Response.ofError (e : ProgramError) : Response := .ofJson e.status e.body

def Response.ofResult {α : Type} (status : Nat) (encode : α → Json) :
    Except ServiceError α → Response
  | .ok a => .ofJson status (encode a)
  | .error e => .ofError (.service e)

def viewsToJson (views : List View) : Json := .array (views.map View.toJson)

end Onboarding.Http

namespace Onboarding.Registry

open Http

variable {σ κ : Type} [RecordStore σ]

def answerSubmission (reg : Registry σ κ) (site : Site) (request : Request) :
    Response × Registry σ κ :=
  if !request.contentType.any isJsonType then
    (.rejection 415 "Expected request with Content-Type: application/json", reg)
  else
    match Submission.read request.body with
    | .error .malformed => (.rejection 400 "Failed to parse the request body as JSON", reg)
    | .error .unexpected =>
      (.rejection 422 "Failed to deserialize the JSON body into the target type", reg)
    | .ok did =>
      let (result, reg) := reg.submit did site.freshId site.now
      (.ofResult 202 (fun r => r.view.toJson) result, reg)

def answerListing (reg : Registry σ κ) (query : List Char) : Response × Registry σ κ :=
  let list (state : Option State) : Response × Registry σ κ :=
    let (result, reg) := reg.listing state
    (.ofResult 200 viewsToJson result, reg)
  match formValues query "state" with
  | [] => list none
  | [raw] =>
    match State.ofLabel? raw with
    | some state => list (some state)
    | none => (.ofJson 400 (.object [("error", .string ("unknown state '" ++ raw ++ "'"))]), reg)
  | _ => (.rejection 400 "Failed to deserialize query string: duplicate field state", reg)

def answerStatus (reg : Registry σ κ) (segment : List Char) : Response × Registry σ κ :=
  match textOfBytes? (percentDecoded segment) with
  | none => (.rejection 400 "Invalid URL: Invalid UTF-8", reg)
  | some name =>
    let (result, reg) := reg.status ⟨name⟩
    (.ofResult 200 View.toJson result, reg)

def answerLookUp (reg : Registry σ κ) (query : List Char) : Response × Registry σ κ :=
  match formValues query "did" with
  | [raw] =>
    let (result, reg) := reg.lookUp raw
    (.ofResult 200 View.toJson result, reg)
  | [] => (.rejection 400 "Failed to deserialize query string: missing field did", reg)
  | _ => (.rejection 400 "Failed to deserialize query string: duplicate field did", reg)

def answerGet (reg : Registry σ κ) (site : Site) (request : Request) :
    Endpoint → Response × Registry σ κ
  | .participants => reg.answerListing request.query
  | .participant segment => reg.answerStatus segment
  | .lookUp => reg.answerLookUp request.query
  | .stalled =>
    let (result, reg) := reg.stalled site.now site.stallThreshold
    (.ofResult 200 viewsToJson result, reg)
  | .health => (.ofJson 200 (.object [("status", .string "ok")]), reg)
  | .readiness =>
    if site.isReady then (.ofJson 200 (.object [("status", .string "ready")]), reg)
    else (.ofJson 503 (.object [("status", .string "initializing")]), reg)
  | .metrics =>
    ({ status := 200, contentType := some "text/plain; version=0.0.4", body := .text site.metrics },
      reg)

/-- Answers a request. One that asks only for the head gets the response without its body. -/
def answer (reg : Registry σ κ) (site : Site) (request : Request) : Response × Registry σ κ :=
  match Endpoint.ofPath? request.path with
  | none => ({ status := 404 }, reg)
  | some endpoint =>
    if request.method = "GET" then reg.answerGet site request endpoint
    else if request.method = "HEAD" then
      let (response, reg) := reg.answerGet site request endpoint
      ({ response with body := .empty }, reg)
    else if request.method = "POST" ∧ endpoint = .participants then
      reg.answerSubmission site request
    else ({ status := 405 }, reg)

end Onboarding.Registry
