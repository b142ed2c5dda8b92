import Onboarding.Http.Answer
import Onboarding.Proofs.Applicants
import Onboarding.Proofs.Bodies
import Onboarding.Proofs.Queries

namespace Onboarding

open Http

theorem State.isFailure_eq_false_iff {s : State} :
    s.isFailure = false ↔ s ≠ .policyDenied ∧ s ≠ .verificationFailed := by
  cases s <;> simp [isFailure]

namespace Store

structure IsLatest (s : Store) (did : Did) (last : Record) : Prop where
  -- All other records of the participant come before this one, by their creation.
  mem : last ∈ s.records
  did_eq : last.did = did
  greatest : ∀ r ∈ s.records, r.did = did → r ≠ last → r.IsBefore Record.createdAt last

structure Bars (s : Store) (did : Did) (last : Record) : Prop extends s.IsLatest did last where
  -- The latest registration of the participant goes on or has succeeded.
  not_denied : last.state ≠ .policyDenied
  not_failed : last.state ≠ .verificationFailed

variable {s : Store} {did : Did} {last : Record}

/-- The store finds the one record behind all others of the participant. -/
theorem isLatest_iff : s.IsLatest did last ↔ s.latest? did = some last := by
  rw [latest?_eq_some_iff]
  constructor
  · rintro ⟨hmem, hdid, hgreatest⟩
    refine ⟨hmem, hdid, ?_⟩
    intro r hr hrdid
    by_cases heq : r = last
    · rw [heq]
      exact Record.precedes_rfl
    · apply Record.precedes_iff.2
      rcases hgreatest r hr hrdid heq with hlt | ⟨htime, hname⟩
      · exact Or.inl hlt
      · exact Or.inr ⟨htime, (String.le_total _ _).resolve_right (String.not_le.2 hname)⟩
  · rintro ⟨hmem, hdid, hall⟩
    refine ⟨hmem, hdid, ?_⟩
    intro r hr hrdid hne
    have hid : r.id ≠ last.id := fun h => hne (eq_of_mem_of_id_eq hr hmem h)
    exact Record.isBefore_of_precedes (hall r hr hrdid) hid

theorem bars_iff :
    s.Bars did last ↔ s.latest? did = some last ∧ last.state.isFailure = false := by
  rw [State.isFailure_eq_false_iff, ← isLatest_iff]
  constructor
  · rintro ⟨hlatest, hdenied, hfailed⟩
    exact ⟨hlatest, hdenied, hfailed⟩
  · rintro ⟨hlatest, hdenied, hfailed⟩
    exact ⟨hlatest, hdenied, hfailed⟩

end Store

/-- A store that may refuse to look for a participant or to create a record. Then it leaves the
records as they are. -/
structure UnsteadyStore where
  store : Store
  latestRefusal : Option StoreError := none
  createRefusal : Option StoreError := none

instance : RecordStore UnsteadyStore where
  create s r :=
    match s.createRefusal with
    | some e => (.error e, s)
    | none =>
      let (result, store) := RecordStore.create s.store r
      (result, { s with store })
  get s id := (s.store.get id, s)
  latest s did :=
    match s.latestRefusal with
    | some e => (.error e, s)
    | none => (.ok (s.store.latest? did), s)
  list s state := (.ok (s.store.list state), s)
  lease s limit now := (.ok (s.store.lease limit now), s)
  compareAndSwap s r expected :=
    let (result, store) := RecordStore.compareAndSwap s.store r expected
    (result, { s with store })

namespace UnsteadyStore

def Refuses (s : UnsteadyStore) (did : Did) (e : StoreError) : Prop :=
  -- The store gets the second request only if it answers the first and no registration is in the
  -- way.
  s.latestRefusal = some e ∨
    s.latestRefusal = none ∧ (∀ last, ¬s.store.Bars did last) ∧ s.createRefusal = some e

def IsTaken (s : UnsteadyStore) (did : Did) (last : Record) : Prop :=
  -- A registration of the participant is in the way.
  s.latestRefusal = none ∧ s.store.Bars did last

def Accepts (s : UnsteadyStore) (did : Did) : Prop :=
  s.latestRefusal = none ∧ s.createRefusal = none ∧ ∀ last, ¬s.store.Bars did last

/-- A submission is refused by the store, finds a registration in its way, or is accepted. -/
theorem exists_reception (s : UnsteadyStore) (did : Did) :
    (∃ e, s.Refuses did e) ∨ (∃ last, s.IsTaken did last) ∨ s.Accepts did := by
  cases hlatest : s.latestRefusal with
  | some e => exact Or.inl ⟨e, Or.inl hlatest⟩
  | none =>
    by_cases hbars : ∃ last, s.store.Bars did last
    · obtain ⟨last, hlast⟩ := hbars
      exact Or.inr (Or.inl ⟨last, hlatest, hlast⟩)
    · have hfree : ∀ last, ¬s.store.Bars did last := not_exists.1 hbars
      cases hcreate : s.createRefusal with
      | some e => exact Or.inl ⟨e, Or.inr ⟨hlatest, hfree, hcreate⟩⟩
      | none => exact Or.inr (Or.inr ⟨hlatest, hcreate, hfree⟩)

end UnsteadyStore

namespace Registry

variable {κ : Type} {reg : Registry UnsteadyStore κ} {raw : String} {did : Did}
  {id : ParticipantId} {now : Instant}

theorem request_latest (h : reg.store.latestRefusal = none) (did : Did) :
    reg.request (RecordStore.latest · did) = (.ok (reg.store.store.latest? did), reg) := by
  simp only [request, RecordStore.latest, h]

theorem vet_of_latestRefusal {e : StoreError} (hparse : Did.parse raw = .ok did)
    (h : reg.store.latestRefusal = some e) : reg.vet raw id now = (.error (.store e), reg) := by
  have hrequest : reg.request (RecordStore.latest · did) = (.error (.store e), reg) := by
    simp only [request, RecordStore.latest, h]
  simp only [vet, hparse, hrequest]

theorem vet_of_isTaken {last : Record} (hparse : Did.parse raw = .ok did)
    (h : reg.store.IsTaken did last) :
    reg.vet raw id now = (.error (.alreadyRegistered did last.id last.state), reg) := by
  obtain ⟨hanswers, hbars⟩ := h
  obtain ⟨hlatest, hstate⟩ := Store.bars_iff.1 hbars
  rw [vet_of_request hparse (request_latest hanswers did), hlatest]
  simp only [admission, hstate, Bool.false_eq_true, if_false]

theorem vet_of_free (hparse : Did.parse raw = .ok did) (h : reg.store.latestRefusal = none)
    (hfree : ∀ last, ¬reg.store.store.Bars did last) :
    reg.vet raw id now = (.ok (.new id did now), reg) := by
  rw [vet_of_request hparse (request_latest h did)]
  cases hlatest : reg.store.store.latest? did with
  | none => rfl
  | some last =>
    have hfailed : last.state.isFailure = true := by
      by_contra hnot
      exact hfree last (Store.bars_iff.2 ⟨hlatest, by simpa using hnot⟩)
    simp only [admission, hfailed, if_true]

theorem submit_of_invalid {error : InvalidDid} (h : Did.parse raw = .error error) :
    reg.submit raw id now = (.error (.invalidDid ⟨raw⟩), reg) := by
  have hraw : error = ⟨raw⟩ := congrArg InvalidDid.mk (Did.raw_of_parse_eq_error h)
  rw [submit_eq, vet_of_parse_eq_error h, hraw]

theorem submit_of_isTaken {last : Record} (hparse : Did.parse raw = .ok did)
    (h : reg.store.IsTaken did last) :
    reg.submit raw id now = (.error (.alreadyRegistered did last.id last.state), reg) := by
  rw [submit_eq, vet_of_isTaken hparse h]

/-- A refusal of the store is handed on, and nothing is created. -/
theorem submit_of_refuses {e : StoreError} (hparse : Did.parse raw = .ok did)
    (h : reg.store.Refuses did e) : reg.submit raw id now = (.error (.store e), reg) := by
  rw [submit_eq]
  rcases h with hlatest | ⟨hlatest, hfree, hcreate⟩
  · rw [vet_of_latestRefusal hparse hlatest]
  · rw [vet_of_free hparse hlatest hfree]
    have hrequest :
        reg.request (RecordStore.create · (.new id did now)) = (.error (.store e), reg) := by
      simp only [request, RecordStore.create, hcreate]
    simp only [register, hrequest]

/-- A submission that is accepted creates one record. -/
theorem exists_submit_of_accepts (hparse : Did.parse raw = .ok did) (h : reg.store.Accepts did)
    (hfresh : reg.store.store.find? id = none) :
    ∃ t : Store, reg.store.store.create (.new id did now) = .ok t ∧
      (reg.submit raw id now).1 = .ok (.new id did now) ∧
      (reg.submit raw id now).2.store.store = t := by
  obtain ⟨hlatest, hcreate, hfree⟩ := h
  obtain ⟨t, ht, -⟩ := @Store.exists_create_eq_ok reg.store.store (.new id did now) hfresh
  have hrequest : reg.request (RecordStore.create · (.new id did now)) =
      (.ok (.new id did now), { reg with store := { reg.store with store := t } }) := by
    simp only [request, RecordStore.create, hcreate, ht]
  refine ⟨t, ht, ?_⟩
  rw [submit_eq, vet_of_free hparse hlatest hfree]
  simp only [register, hrequest]
  exact ⟨trivial, rfl⟩

end Registry

def StoreError.answerStatus : StoreError → Nat
  | .unavailable _ => 503
  | .alreadyExists _ | .conflict .. => 500
  | .notFound _ => 404

structure Http.Request.Submits (request : Request) (raw : String) : Prop where
  method_eq : request.method = "POST"
  path_eq : request.path = "/api/v1/registry/participants".toList
  is_json : request.contentType.any isJsonType = true
  body_eq : Submission.read request.body = .ok raw

def Http.Request.submission (raw : String) : Request where
  method := "POST"
  target := "/api/v1/registry/participants"
  contentType := some "application/json"
  body := bodyOf raw

/-- Every text may be submitted. -/
theorem Http.Request.submits_submission (raw : String) : (submission raw).Submits raw where
  method_eq := rfl
  path_eq := by
    simp only [path, location, submission]
    decide +kernel
  is_json := by
    simp only [submission, Option.any_some]
    decide +kernel
  body_eq := read_bodyOf raw

/-- The response to a submission, and the store after it, are what they have to be. -/
structure UnsteadyStore.Receives (before : UnsteadyStore) (site : Site) (raw : String)
    (response : Response) (after : UnsteadyStore) : Prop where
  invalid_iff : response.status = 400 ↔ ∃ error, Did.parse raw = .error error
  invalid : ∀ error, Did.parse raw = .error error → response = .ofJson 400 (.object [
    ("error", .string ("'" ++ raw ++ "' is not a valid DID (expected did:<method>:<id>)"))])
  trimmed : ∀ did, Did.parse raw = .ok did → did.text = Text.trimmed raw
  refused : ∀ did e, Did.parse raw = .ok did → before.Refuses did e →
    response = .ofJson e.answerStatus (.object [("error", .string e.message)])
  taken_iff : response.status = 409 ↔
    ∃ did last, Did.parse raw = .ok did ∧ before.IsTaken did last
  taken : ∀ did last, Did.parse raw = .ok did → before.IsTaken did last →
    response = .ofJson 409 (.object [
      ("error", .string (ServiceError.alreadyRegistered did last.id last.state).message),
      ("participant_id", .string last.id.text)])
  accepted_iff : response.status = 202 ↔ ∃ did, Did.parse raw = .ok did ∧ before.Accepts did
  accepted : ∀ did, Did.parse raw = .ok did → before.Accepts did →
    let r := Record.new site.freshId did site.now
    response = .ofJson 202 r.view.toJson ∧ after.store.records = r :: before.store.records ∧
      ∀ id, after.store.find? id = if id = r.id then some r else before.store.find? id
  unchanged : response.status ≠ 202 → after = before

theorem StoreError.answerStatus_mem (e : StoreError) :
    e.answerStatus = 503 ∨ e.answerStatus = 500 ∨ e.answerStatus = 404 := by
  cases e <;> simp [answerStatus]

theorem Http.Response.ofError_store (e : StoreError) :
    Response.ofError (.service (.store e)) =
      .ofJson e.answerStatus (.object [("error", .string e.message)]) := by
  cases e <;> rfl

namespace Registry

section

variable {σ κ : Type} {request : Request} {raw : String}

theorem answer_of_submits [RecordStore σ] (h : request.Submits raw) (reg : Registry σ κ)
    (site : Site) :
    reg.answer site request =
      (.ofResult 202 (fun r => r.view.toJson) (reg.submit raw site.freshId site.now).1,
        (reg.submit raw site.freshId site.now).2) := by
  simp only [answer, h.path_eq, Endpoint.ofPath?_participants, h.method_eq, answerSubmission,
    h.is_json, h.body_eq]
  simp

end

section

variable {κ : Type} {reg : Registry UnsteadyStore κ} {site : Site} {request : Request}
  {raw : String} {did : Did}

theorem answer_of_invalid {error : InvalidDid} (h : request.Submits raw)
    (herror : Did.parse raw = .error error) :
    reg.answer site request = (.ofJson 400 (.object [
      ("error", .string ("'" ++ raw ++ "' is not a valid DID (expected did:<method>:<id>)"))]),
      reg) := by
  rw [answer_of_submits h, submit_of_invalid herror]
  rfl

theorem answer_of_refuses {e : StoreError} (h : request.Submits raw)
    (hparse : Did.parse raw = .ok did) (he : reg.store.Refuses did e) :
    reg.answer site request =
      (.ofJson e.answerStatus (.object [("error", .string e.message)]), reg) := by
  rw [answer_of_submits h, submit_of_refuses hparse he, ← Response.ofError_store]
  rfl

theorem answer_of_isTaken {last : Record} (h : request.Submits raw)
    (hparse : Did.parse raw = .ok did) (hlast : reg.store.IsTaken did last) :
    reg.answer site request = (.ofJson 409 (.object [
      ("error", .string (ServiceError.alreadyRegistered did last.id last.state).message),
      ("participant_id", .string last.id.text)]), reg) := by
  rw [answer_of_submits h, submit_of_isTaken hparse hlast]
  rfl

theorem answer_of_accepts (h : request.Submits raw) (hparse : Did.parse raw = .ok did)
    (haccepts : reg.store.Accepts did) (hfresh : reg.store.store.find? site.freshId = none) :
    (reg.answer site request).1 = .ofJson 202 (Record.new site.freshId did site.now).view.toJson ∧
      reg.store.store.create (.new site.freshId did site.now) =
        .ok (reg.answer site request).2.store.store := by
  obtain ⟨t, ht, hresult, hafter⟩ :=
    @exists_submit_of_accepts κ reg raw did site.freshId site.now hparse haccepts hfresh
  rw [answer_of_submits h, hresult, hafter]
  exact ⟨rfl, ht⟩

/-- The status of the answer to a submission, and what it comes from. -/
theorem answer_status (h : request.Submits raw)
    (hfresh : reg.store.store.find? site.freshId = none) :
    let status := (reg.answer site request).1.status
    (status = 400 ∧ ∃ error, Did.parse raw = .error error) ∨
      ((status = 503 ∨ status = 500 ∨ status = 404) ∧
        ∃ did e, Did.parse raw = .ok did ∧ reg.store.Refuses did e) ∨
      (status = 409 ∧ ∃ did last, Did.parse raw = .ok did ∧ reg.store.IsTaken did last) ∨
      (status = 202 ∧ ∃ did, Did.parse raw = .ok did ∧ reg.store.Accepts did) := by
  cases hparse : Did.parse raw with
  | error error =>
    left
    rw [answer_of_invalid h hparse]
    exact ⟨rfl, error, rfl⟩
  | ok did =>
    right
    rcases reg.store.exists_reception did with ⟨e, he⟩ | ⟨last, hlast⟩ | haccepts
    · left
      rw [answer_of_refuses h hparse he]
      exact ⟨e.answerStatus_mem, did, e, rfl, he⟩
    · right; left
      rw [answer_of_isTaken h hparse hlast]
      exact ⟨rfl, did, last, rfl, hlast⟩
    · right; right
      rw [(answer_of_accepts h hparse haccepts hfresh).1]
      exact ⟨rfl, did, rfl, haccepts⟩

/-- A submission over HTTP is answered by what the text is, what is stored and what the store
refuses, and a success alone leaves a trace: one new record. -/
theorem submission_is_exact (reg : Registry UnsteadyStore κ) (h : request.Submits raw)
    (hfresh : reg.store.store.find? site.freshId = none) :
    reg.store.Receives site raw (reg.answer site request).1 (reg.answer site request).2.store := by
  -- Different statuses come from different reasons.
  have hstatus := @answer_status κ reg site request raw h hfresh
  exact {
    invalid_iff := by
      constructor
      · intro h400
        rcases hstatus with ⟨-, herror⟩ | ⟨hother, -⟩ | ⟨hother, -⟩ | ⟨hother, -⟩
        · exact herror
        all_goals omega
      · rintro ⟨error, herror⟩
        rw [answer_of_invalid h herror]
        rfl
    taken_iff := by
      constructor
      · intro h409
        rcases hstatus with ⟨hother, -⟩ | ⟨hother, -⟩ | ⟨-, htaken⟩ | ⟨hother, -⟩
        case inr.inr.inl => exact htaken
        all_goals omega
      · rintro ⟨did, last, hparse, hlast⟩
        rw [answer_of_isTaken h hparse hlast]
        rfl
    accepted_iff := by
      constructor
      · intro h202
        rcases hstatus with ⟨hother, -⟩ | ⟨hother, -⟩ | ⟨hother, -⟩ | ⟨-, haccepts⟩
        case inr.inr.inr => exact haccepts
        all_goals omega
      · rintro ⟨did, hparse, haccepts⟩
        rw [(answer_of_accepts h hparse haccepts hfresh).1]
        rfl
    trimmed := fun did hparse => Did.text_of_parse_eq_ok hparse
    invalid := by
      intro error herror
      rw [answer_of_invalid h herror]
    refused := by
      intro did e hparse he
      rw [answer_of_refuses h hparse he]
    taken := by
      intro did last hparse hlast
      rw [answer_of_isTaken h hparse hlast]
    accepted := by
      intro did hparse haccepts
      obtain ⟨hresponse, hcreate⟩ := answer_of_accepts h hparse haccepts hfresh
      exact ⟨hresponse, (Store.create_eq_ok_iff.1 hcreate).2, Store.find?_of_create_eq_ok hcreate⟩
    unchanged := by
      intro hnot
      rcases hstatus with ⟨-, error, herror⟩ | ⟨-, did, e, hparse, he⟩ |
        ⟨-, did, last, hparse, hlast⟩ | ⟨h202, -⟩
      · rw [answer_of_invalid h herror]
      · rw [answer_of_refuses h hparse he]
      · rw [answer_of_isTaken h hparse hlast]
      · exact absurd h202 hnot }

/-- The second submission of a participant, with white space around the text, names the first. -/
theorem second_submission_names_the_first :
    let start : Registry UnsteadyStore Unit := { store := { store := .empty }, collaborators := () }
    let reg := (start.submit "did:web:participant" ⟨"1"⟩ .epoch).2
    let site : Site := {
      isReady := true, freshId := ⟨"2"⟩, now := .epoch, stallThreshold := .ofSeconds 900 }
    let request : Request := .submission " did:web:participant "
    reg.store.store.find? site.freshId = none ∧ request.Submits " did:web:participant " ∧
      (reg.answer site request).1.status = 409 ∧
      (reg.answer site request).2.store.store.records.map Record.id = [⟨"1"⟩] ∧
      ∃ message, (reg.answer site request).1.body =
        .json (.object [("error", message), ("participant_id", .string "1")]) := by
  intro start reg site request
  have hfresh : reg.store.store.find? site.freshId = none := by
    have hnone : (reg.store.store.find? site.freshId).isNone = true := by decide +kernel
    exact Option.isNone_iff_eq_none.1 hnone
  have hsubmits : request.Submits " did:web:participant " := Request.submits_submission _
  have hexact := submission_is_exact reg hsubmits hfresh
  have hparse : ((Did.parse " did:web:participant ").toOption).isSome = true := by decide +kernel
  have hlatest : ∀ did ∈ (Did.parse " did:web:participant ").toOption,
      (reg.store.store.latest? did).map (fun r => (r.id, r.state)) =
        some (⟨"1"⟩, .onboardingInitiated) := by decide +kernel
  cases hdid : Did.parse " did:web:participant " with
  | error error =>
    rw [hdid] at hparse
    cases hparse
  | ok did =>
    obtain ⟨last, hlast, hfacts⟩ := Option.map_eq_some_iff.1 (hlatest did (by rw [hdid]; rfl))
    obtain ⟨hid, hstate⟩ := Prod.mk.inj hfacts
    have htaken : reg.store.IsTaken did last := by
      refine ⟨rfl, Store.bars_iff.2 ⟨hlast, ?_⟩⟩
      rw [hstate]
      rfl
    have h409 : (reg.answer site request).1.status = 409 :=
      hexact.taken_iff.2 ⟨did, last, hdid, htaken⟩
    have hsame : (reg.answer site request).2.store = reg.store := by
      apply hexact.unchanged
      rw [h409]
      decide
    have hname : last.id.text = "1" := congrArg ParticipantId.text hid
    refine ⟨hfresh, hsubmits, h409, ?_, ?_⟩
    · rw [hsame]
      decide +kernel
    · rw [hexact.taken did last hdid htaken, hname]
      exact ⟨_, rfl⟩

end

end Registry

end Onboarding
