import Mathlib.Logic.Relation
import Onboarding.Proofs.Preparation

namespace Onboarding

/-- The one record may take the place of the other: it is the next version of it, one edge further,
and what is known about the participant changes on the edge that finds it out only. -/
structure Record.LeadsTo (old new : Record) : Prop where
  id : new.id = old.id
  did : new.did = old.did
  createdAt : new.createdAt = old.createdAt
  version : new.version = old.version + 1
  edge : new.state ∈ old.state.successors
  identity : new.identity ≠ old.identity →
    old.state = .verifyingIdentity ∧ new.state = .verifyingCredentials
  verifiedClaims : new.verifiedClaims ≠ old.verifiedClaims →
    old.state = .verifyingCredentials ∧ new.state = .evaluatingPolicy

theorem Record.LeadsTo.not_isTerminal {old new : Record} (h : old.LeadsTo new) :
    old.state.isTerminal = false := by
  have he := h.edge
  cases hs : old.state <;> rw [hs] at he <;> first | rfl | cases he

theorem Record.eq_of_reflTransGen_leadsTo {old new : Record}
    (h : Relation.ReflTransGen LeadsTo old new) (ht : old.state.isTerminal = true) :
    new = old := by
  induction h with
  | refl => rfl
  | tail _ hlast ih =>
    subst ih
    rw [hlast.not_isTerminal] at ht
    cases ht

namespace Attempt

variable {a : Attempt} {target : State}

/-- A move along an edge leads to the next record, whatever becomes of its count, its detail and its
deadline. -/
theorem leadsTo_of_moved (he : target ∈ a.read.state.successors) {count : Nat}
    {detail : Option String} {due : Instant}
    (hn : a.next = { a.read.moved target a.now with
      retryCount := count, errorDetail := detail, nextAttemptAt := due }) :
    a.read.LeadsTo a.written := by
  constructor <;> simp only [written, hn, Record.moved]
  case edge => exact he
  case identity => exact fun h => absurd rfl h
  case verifiedClaims => exact fun h => absurd rfl h

variable {κ : Type} [Collaborators κ] {tuning : Tuning}

/-- The record that a genuine attempt would store may take the place of the one it read. -/
theorem IsGenuine.leadsTo (h : a.IsGenuine κ tuning) : a.read.LeadsTo a.written := by
  obtain ⟨hs', hfail⟩ := Route.edges_of_of?_eq_some h.routed
  cases h.course with
  | begun hs _ _ hn => exact leadsTo_of_moved (by rw [hs]; decide) hn
  | allowed _ _ hs _ _ _ _ hn => exact leadsTo_of_moved (by rw [hs]; decide) hn
  | denied _ _ _ hs _ _ _ _ hn => exact leadsTo_of_moved (by rw [hs]; decide) hn
  | withoutIdentity hs _ _ _ hn => exact leadsTo_of_moved (by rw [hs]; decide) hn
  | withoutClaims hs _ _ _ hn => exact leadsTo_of_moved (by rw [hs]; decide) hn
  | refused _ fallback _ _ _ hf _ _ hn => exact leadsTo_of_moved (hfail fallback hf).2.1 hn
  | exhausted _ fallback _ _ _ hf _ _ _ hn => exact leadsTo_of_moved (hfail fallback hf).2.1 hn
  | deferred _ fallback _ _ _ hf _ _ _ hn => exact leadsTo_of_moved (hfail fallback hf).1 hn
  | resolved _ _ hs _ _ _ hn =>
    constructor <;> simp only [written, hn, Record.passed, Record.moved]
    case edge => rw [hs]; decide
    case identity => exact fun _ => ⟨hs, trivial⟩
    case verifiedClaims => exact fun h => absurd rfl h
  | verified _ _ _ hs _ _ _ _ hn =>
    constructor <;> simp only [written, hn, Record.passed, Record.moved]
    case edge => rw [hs]; decide
    case identity => exact fun h => absurd rfl h
    case verifiedClaims => exact fun _ => ⟨hs, trivial⟩

theorem IsGenuine.next_id (h : a.IsGenuine κ tuning) : a.next.id = a.read.id := h.leadsTo.id

/-- A record is stamped with the instant of the attempt. It waits only to be tried again. -/
theorem IsGenuine.written_at (h : a.IsGenuine κ tuning) :
    a.written.stateTimestamp = a.now ∧
      (a.written.nextAttemptAt = a.now ∨
        a.written.nextAttemptAt = tuning.backoff.retryAt a.now a.read.failures) := by
  cases h.course with
  | begun _ _ _ hn | allowed _ _ _ _ _ _ _ hn | denied _ _ _ _ _ _ _ _ hn
  | withoutIdentity _ _ _ _ hn | withoutClaims _ _ _ _ hn | refused _ _ _ _ _ _ _ _ hn
  | resolved _ _ _ _ _ _ hn | verified _ _ _ _ _ _ _ _ hn | exhausted _ _ _ _ _ _ _ _ _ hn =>
    rw [written, hn]
    exact ⟨rfl, Or.inl rfl⟩
  | deferred _ _ _ _ _ _ _ _ _ hn =>
    rw [written, hn]
    exact ⟨rfl, Or.inr rfl⟩

end Attempt

end Onboarding
