import Onboarding.Record

/-!
The records of all registrations, under distinct names. A record is replaced only by someone who
knows the version that is stored, and the replacement gets the next version.
-/

namespace Onboarding

inductive StoreError where
  | alreadyExists (id : ParticipantId)
  | notFound (id : ParticipantId)
  | conflict (id : ParticipantId) (expected found : Nat)
  | unavailable (detail : String)
deriving DecidableEq

namespace StoreError

def name : StoreError → String
  | .alreadyExists _ => "AlreadyExists"
  | .notFound _ => "NotFound"
  | .conflict .. => "Conflict"
  | .unavailable _ => "Unavailable"

def message : StoreError → String
  | .alreadyExists id => s!"participant {id} already exists"
  | .notFound id => s!"participant {id} not found"
  | .conflict id expected found =>
    s!"version conflict for participant {id} (expected {expected}, found {found})"
  | .unavailable detail => "participant store unavailable: " ++ detail

end StoreError

namespace Record

/-- The one record has an earlier time than the other, or the same and a name that is not greater.
Times are compared first, so that names decide among equal times only. -/
def precedes (time : Record → Instant) (a b : Record) : Bool :=
  if time a < time b then true
  else if time b < time a then false
  else a.id.text ≤ b.id.text

def isDue (r : Record) (now : Instant) : Bool :=
  !r.state.isTerminal && decide (r.nextAttemptAt ≤ now)

end Record

/-- Records with distinct names. -/
structure Store where
  records : List Record
  nodup : (records.map Record.id).Nodup

namespace Store

def empty : Store := ⟨[], List.nodup_nil⟩

def find? (s : Store) (id : ParticipantId) : Option Record := s.records.find? (·.id = id)

def create (s : Store) (r : Record) : Except StoreError Store :=
  if h : r.id ∈ s.records.map Record.id then .error (.alreadyExists r.id)
  else .ok ⟨r :: s.records, List.nodup_cons.2 ⟨h, s.nodup⟩⟩

def get (s : Store) (id : ParticipantId) : Except StoreError Record :=
  match s.find? id with
  | some r => .ok r
  | none => .error (.notFound id)

def later (best : Option Record) (r : Record) : Option Record :=
  match best with
  | some b => if r.precedes Record.createdAt b then some b else some r
  | none => some r

def latest? (s : Store) (did : Did) : Option Record :=
  (s.records.filter (·.did = did)).foldl later none

def list (s : Store) (state : Option State) : List Record :=
  (s.records.filter fun r => state.all (r.state = ·)).mergeSort (Record.precedes Record.createdAt)

/-- The records that are due, at most `limit` of them; those go first that have been in their state
for longest. -/
def lease (s : Store) (limit : Nat) (now : Instant) : List Record :=
  ((s.records.filter (·.isDue now)).mergeSort (Record.precedes Record.stateTimestamp)).take limit

def replace (s : Store) (r : Record) : Store where
  records := s.records.map fun old => if old.id = r.id then r else old
  nodup := by
    have h : (s.records.map fun old => if old.id = r.id then r else old).map Record.id =
        s.records.map Record.id := by
      rw [List.map_map]
      refine List.map_congr_left fun old _ => ?_
      by_cases h : old.id = r.id <;> simp [h]
    exact h ▸ s.nodup

/-- Replaces a record if the stored version is the expected one. The replacement has the version
after that, whatever version it came with. -/
def compareAndSwap (s : Store) (r : Record) (expected : Nat) : Except StoreError (Record × Store) :=
  match s.find? r.id with
  | none => .error (.notFound r.id)
  | some stored =>
    if stored.version = expected then
      let next := { r with version := expected + 1 }
      .ok (next, s.replace next)
    else .error (.conflict r.id expected stored.version)

end Store

/-- Something that keeps records and may fail. Each request may change it. -/
class RecordStore (σ : Type) where
  create : σ → Record → Except StoreError Record × σ
  get : σ → ParticipantId → Except StoreError Record × σ
  latest : σ → Did → Except StoreError (Option Record) × σ
  list : σ → Option State → Except StoreError (List Record) × σ
  lease : σ → Nat → Instant → Except StoreError (List Record) × σ
  compareAndSwap : σ → Record → Nat → Except StoreError Record × σ

instance : RecordStore Store where
  create s r :=
    match s.create r with
    | .ok s => (.ok r, s)
    | .error e => (.error e, s)
  get s id := (s.get id, s)
  latest s did := (.ok (s.latest? did), s)
  list s state := (.ok (s.list state), s)
  lease s limit now := (.ok (s.lease limit now), s)
  compareAndSwap s r expected :=
    match s.compareAndSwap r expected with
    | .ok (r, s) => (.ok r, s)
    | .error e => (.error e, s)

end Onboarding
