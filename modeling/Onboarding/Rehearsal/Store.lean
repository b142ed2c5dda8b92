import Onboarding.Store

/-!
A store that fails on request, and that names and dates the records that it creates, so that what
happens in it can be foreseen.
-/

namespace Onboarding.Rehearsal

inductive Request where
  | create
  | get
  | latest
  | list
  | lease
  | compareAndSwap
deriving DecidableEq

/-- A store, the failures that are waiting, the time, and a name for the next record if it is not
to be named by its number. -/
structure FaultyStore where
  store : Store := .empty
  faults : List (Request × StoreError) := []
  now : Instant
  nextId : Option ParticipantId := none
  created : Nat := 0
  leases : Nat := 0

namespace FaultyStore

def failing (s : FaultyStore) (request : Request) (error : StoreError) (times : Nat) :
    FaultyStore :=
  { s with faults := s.faults ++ List.replicate times (request, error) }

def guarded {α : Type} (s : FaultyStore) (request : Request)
    (answer : FaultyStore → Except StoreError α × FaultyStore) :
    Except StoreError α × FaultyStore :=
  match s.faults.find? (·.1 = request) with
  | some (_, e) => (.error e, { s with faults := s.faults.eraseP (·.1 = request) })
  | none => answer s

def plainly {α : Type} (ask : Store → Except StoreError α × Store) (s : FaultyStore) :
    Except StoreError α × FaultyStore :=
  let (result, store) := ask s.store
  (result, { s with store := store })

def stamped (s : FaultyStore) (r : Record) : Record :=
  { r with
    id := s.nextId.getD ⟨"p-" ++ toString (s.created + 1)⟩
    stateTimestamp := s.now
    nextAttemptAt := s.now
    createdAt := s.now }

end FaultyStore

instance : RecordStore FaultyStore where
  create s r := s.guarded .create fun s =>
    FaultyStore.plainly (RecordStore.create · (s.stamped r)) { s with created := s.created + 1 }
  get s id := s.guarded .get (FaultyStore.plainly (RecordStore.get · id))
  latest s did := s.guarded .latest (FaultyStore.plainly (RecordStore.latest · did))
  list s state := s.guarded .list (FaultyStore.plainly (RecordStore.list · state))
  lease s limit now :=
    { s with leases := s.leases + 1 }.guarded .lease
      (FaultyStore.plainly (RecordStore.lease · limit now))
  compareAndSwap s r expected :=
    s.guarded .compareAndSwap (FaultyStore.plainly (RecordStore.compareAndSwap · r expected))

end Onboarding.Rehearsal
