import Onboarding.Cycle
import Onboarding.Directory
import Onboarding.ProgramError

namespace Onboarding

structure Demo where
  dids : List String := []
  members : List String := []
  maxCycles : Nat := 50
  asJson : Bool := false
deriving DecidableEq

namespace Demo

def samples : List String := ["did:example:alice", "did:example:bob", "did:example:carol"]

def applicants (d : Demo) : List String := if d.dids.isEmpty then samples else d.dids

def directory (d : Demo) : Directory :=
  -- alice is a member and carol is none, all others only if they are named.
  d.members.foldl (fun directory did => directory.withEntry did true)
    ((({} : Directory).withEntry "did:example:alice" true).withEntry "did:example:carol" false)

abbrev Submission := String × Except ServiceError ParticipantId

def submitAll {σ κ : Type} [RecordStore σ] (ids : Nat → ParticipantId) (clock : Nat → Instant)
    (n k : Nat) : List String → Registry σ κ → List Submission × Registry σ κ
  -- The `n`-th is submitted at the reading `n` of the clock, and the `k`-th that is accepted gets
  -- the name `ids k`.
  | [], reg => ([], reg)
  | did :: rest, reg =>
    let (result, reg) := reg.submit did (ids k) (clock n)
    let used := match result with
      | .ok _ => 1
      | .error _ => 0
    let (others, reg) := submitAll ids clock (n + 1) (k + used) rest reg
    ((did, result.map Record.id) :: others, reg)

def accepted (submissions : List Submission) : List ParticipantId :=
  submissions.filterMap (·.2.toOption)

def statuses {σ κ : Type} [RecordStore σ] :
    List ParticipantId → Registry σ κ → Except ProgramError (List View)
  | [], _ => .ok []
  | id :: rest, reg =>
    match reg.status id with
    | (.error e, _) => .error (.service e)
    | (.ok view, reg) => (statuses rest reg).map (view :: ·)

structure Report where
  submissions : List Submission
  cycles : Nat
  views : List View

/-- Runs the demonstration, with the names and the readings of the clock for the submissions and,
from there on, for the cycles, which are the longest wait for an attempt apart. -/
def run (d : Demo) (ids : Nat → ParticipantId) (clock : Nat → Instant) :
    Except ProgramError Report :=
  let tuning : Tuning := {}
  let desk : Desk := { directory := d.directory }
  let reg : Registry Store Desk := { store := .empty, collaborators := desk }
  let (submissions, reg) := submitAll ids clock 0 0 d.applicants reg
  let start := clock d.applicants.length
  let cycleClock (k : Nat) : Instant := start.after ⟨k * tuning.backoff.cap.nanoseconds⟩
  match Registry.drain tuning cycleClock d.maxCycles 0 reg with
  | (.error e, _) => .error (.store e)
  | (.ok reports, reg) =>
    (statuses (accepted submissions) reg).map fun views =>
      { submissions, cycles := busyCycles reports, views }

def padded (width : Nat) (s : String) : String :=
  s ++ String.ofList (List.replicate (width - s.length) ' ')

def submissionLine : Submission → String
  | (did, .ok id) => s!"  Submitted {did} as {id}"
  | (_, .error e) => "  Submission rejected: " ++ e.message

def viewLines (v : View) : List String :=
  ("  " ++ padded 24 v.did.text ++ " " ++ padded 22 v.state.label ++ " " ++
      padded 24 v.status.name ++ " retries=" ++ toString v.retryCount) ::
    (v.errorDetail.toList.map ("      " ++ ·))

def Report.text (r : Report) (asJson : Bool) : String :=
  if asJson then (Json.array (r.views.map View.toJson)).pretty ++ "\n"
  else
    let lines := ["Dataspace registration demo"] ++ r.submissions.map submissionLine ++
      ["", s!"Settled after {r.cycles} poll cycles:"] ++ r.views.flatMap viewLines
    String.join (lines.map (· ++ "\n"))

end Demo

end Onboarding
