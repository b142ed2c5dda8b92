import Onboarding.Service
import Onboarding.Store.Lemmas

namespace Onboarding.Registry

variable {σ κ : Type}

def vet [RecordStore σ] (reg : Registry σ κ) (raw : String) (id : ParticipantId)
    (now : Instant) : Except ServiceError Record × Registry σ κ :=
  match Did.parse raw with
  | .error e => (.error (.invalidDid e), reg)
  | .ok did =>
    match reg.request (RecordStore.latest · did) with
    | (.error e, reg) => (.error e, reg)
    | (.ok none, reg) => (.ok (.new id did now), reg)
    | (.ok (some existing), reg) =>
      if existing.state.isFailure then (.ok (.new id did now), reg)
      else (.error (.alreadyRegistered did existing.id existing.state), reg)

/-- A submission is its admission, followed by the creation of the record if it was admitted. -/
theorem submit_eq [RecordStore σ] (reg : Registry σ κ) (raw : String) (id : ParticipantId)
    (now : Instant) :
    reg.submit raw id now =
      match reg.vet raw id now with
      | (.error e, reg) => (.error e, reg)
      | (.ok r, reg) => reg.register r := by
  unfold submit vet
  cases Did.parse raw with
  | error e => rfl
  | ok did =>
    simp only
    obtain ⟨result, after⟩ := reg.request (RecordStore.latest · did)
    cases result with
    | error e => rfl
    | ok latest =>
      cases latest with
      | none => rfl
      | some existing => by_cases h : existing.state.isFailure = true <;> simp [h]

def admission (did : Did) (id : ParticipantId) (now : Instant) :
    Option Record → Except ServiceError Record
  | none => .ok (.new id did now)
  | some last =>
    if last.state.isFailure then .ok (.new id did now)
    else .error (.alreadyRegistered did last.id last.state)

/-- Once the store has answered for the latest registration of a participant, the admission depends
on that answer alone. -/
theorem vet_of_request [RecordStore σ] {reg after : Registry σ κ} {raw : String} {did : Did}
    {found : Option Record} (hd : Did.parse raw = .ok did)
    (hl : reg.request (RecordStore.latest · did) = (.ok found, after)) (id : ParticipantId)
    (now : Instant) : reg.vet raw id now = (admission did id now found, after) := by
  simp only [vet, hd, hl]
  cases found with
  | none => rfl
  | some last => by_cases hf : last.state.isFailure = true <;> simp [admission, hf]

theorem vet_of_parse_eq_ok {raw : String} {did : Did} (hd : Did.parse raw = .ok did)
    (reg : Registry Store κ) (id : ParticipantId) (now : Instant) :
    reg.vet raw id now =
      (match reg.store.latest? did with
        | none => .ok (.new id did now)
        | some last =>
          if last.state.isFailure then .ok (.new id did now)
          else .error (.alreadyRegistered did last.id last.state), reg) :=
  vet_of_request hd rfl id now

theorem vet_of_parse_eq_error [RecordStore σ] {raw : String} {error : InvalidDid}
    (hd : Did.parse raw = .error error) (reg : Registry σ κ) (id : ParticipantId)
    (now : Instant) : reg.vet raw id now = (.error (.invalidDid error), reg) := by
  simp only [vet, hd]

/-- A submission is accepted if the latest registration of the participant, if there is one, has
failed. -/
theorem eq_new_of_vet_eq_ok {reg after : Registry Store κ} {raw : String} {id : ParticipantId}
    {now : Instant} {r : Record} (h : reg.vet raw id now = (.ok r, after)) :
    ∃ did, Did.parse raw = .ok did ∧ r = .new id did now ∧
      ∀ last, reg.store.latest? did = some last → last.state.isFailure = true := by
  cases hd : Did.parse raw with
  | error e =>
    rw [vet_of_parse_eq_error hd] at h
    cases h
  | ok did =>
    rw [vet_of_parse_eq_ok hd] at h
    refine ⟨did, rfl, ?_⟩
    cases hl : reg.store.latest? did with
    | none =>
      rw [hl] at h
      cases h
      exact ⟨rfl, by simp⟩
    | some last =>
      by_cases hf : last.state.isFailure = true
      · simp only [hl, if_pos hf] at h
        cases h
        refine ⟨rfl, ?_⟩
        rintro found ⟨rfl⟩
        exact hf
      · simp only [hl, if_neg hf] at h
        cases h

/-- An admission reads the store and leaves it as it is. -/
theorem vet_store {reg after : Registry Store κ} {raw : String} {id : ParticipantId}
    {now : Instant} {result : Except ServiceError Record}
    (h : reg.vet raw id now = (result, after)) : after.store = reg.store := by
  cases hd : Did.parse raw with
  | error e =>
    rw [vet_of_parse_eq_error hd] at h
    cases h
    rfl
  | ok did =>
    rw [vet_of_parse_eq_ok hd] at h
    exact congrArg Registry.store (Prod.ext_iff.1 h).2.symm

theorem register_of_create_eq_ok {reg : Registry Store κ} {r : Record} {s : Store}
    (h : reg.store.create r = .ok s) :
    (reg.register r).1 = .ok r ∧ (reg.register r).2.store = s := by
  have hc : reg.request (RecordStore.create · r) = (.ok r, { reg with store := s }) := by
    simp only [request, RecordStore.create, h]
  unfold register
  rw [hc]
  exact ⟨rfl, rfl⟩

theorem register_of_create_eq_error {reg : Registry Store κ} {r : Record} {error : StoreError}
    (h : reg.store.create r = .error error) :
    (reg.register r).1 = .error (.store error) ∧ (reg.register r).2.store = reg.store := by
  have hc : reg.request (RecordStore.create · r) = (.error (.store error), reg) := by
    simp only [request, RecordStore.create, h]
  unfold register
  rw [hc]
  exact ⟨rfl, rfl⟩

theorem submit_eq_ok_of_isOk [RecordStore σ] {reg : Registry σ κ} {raw : String}
    {id : ParticipantId} {now : Instant} (h : (reg.submit raw id now).1.isOk = true) :
    ∃ r, reg.submit raw id now = (.ok r, (reg.submit raw id now).2) := by
  cases hresult : (reg.submit raw id now).1 with
  | error e =>
    rw [hresult] at h
    cases h
  | ok r => exact ⟨r, Prod.ext hresult rfl⟩

/-- A submission leaves the records as they are or puts a new one before them. -/
theorem submit_cases (reg : Registry Store κ) (raw : String) (id : ParticipantId)
    (now : Instant) :
    (reg.submit raw id now).2.store = reg.store ∨
      ∃ did, (reg.submit raw id now).2.store.records = .new id did now :: reg.store.records := by
  rw [submit_eq]
  cases hv : reg.vet raw id now with
  | mk result after =>
    have hstore := vet_store hv
    cases result with
    | error e => exact Or.inl hstore
    | ok r =>
      obtain ⟨did, -, rfl, -⟩ := eq_new_of_vet_eq_ok hv
      cases hc : after.store.create (.new id did now) with
      | error e => exact Or.inl ((register_of_create_eq_error hc).2.trans hstore)
      | ok s =>
        refine Or.inr ⟨did, ?_⟩
        rw [(register_of_create_eq_ok hc).2, (Store.create_eq_ok_iff.1 hc).2, hstore]

end Onboarding.Registry
