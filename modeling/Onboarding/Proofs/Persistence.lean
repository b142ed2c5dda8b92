import Onboarding.Proofs.Parts

namespace Onboarding

open Number

namespace IdentityDescriptor

structure StandsIn (i : IdentityDescriptor) (v : Json) : Prop where
  did : ∃ w ∈ v.part? 4 0 "did", i.did.StandsIn w
  verificationMethods :
    v.part? 4 1 "verification_methods" = some (.array (i.verificationMethods.map .string))
  credentialsEndpoint : Json.MayHold Json.IsText (v.part? 4 2 "credentials_endpoint")
    i.credentialsEndpoint
  presentedClaims : ∃ w ∈ v.part? 4 3 "presented_claims", i.presentedClaims.StandsIn w

theorem ofJson?_eq_some_iff {v : Json} {i : IdentityDescriptor} :
    ofJson? v = some i ↔ i.StandsIn v := by
  constructor
  · intro h
    obtain ⟨did, hdid, h⟩ := Option.bind_eq_some_iff.1 h
    obtain ⟨items, hitems, h⟩ := Option.bind_eq_some_iff.1 h
    obtain ⟨methods, hmethods, h⟩ := Option.bind_eq_some_iff.1 h
    obtain ⟨endpoint, hendpoint, h⟩ := Option.bind_eq_some_iff.1 h
    obtain ⟨claims, hclaims, h⟩ := Option.bind_eq_some_iff.1 h
    cases h
    obtain ⟨w, hw, harray⟩ := Option.bind_eq_some_iff.1 hitems
    have hall := Json.mapM_string?_eq_some_iff.1 hmethods
    exact {
      did := (Json.bind_eq_some_iff Did.ofJson?_eq_some_iff).1 hdid
      verificationMethods := by rw [hw, Json.array?_eq_some_iff.1 harray, hall]
      credentialsEndpoint := (Json.optional?_eq_some_iff Json.string?_eq_some_iff rfl).1 hendpoint
      presentedClaims := (Json.bind_eq_some_iff ClaimSet.ofJson?_eq_some_iff).1 hclaims }
  · rintro ⟨hdid, hmethods, hendpoint, hclaims⟩
    have hitems : (v.part? 4 1 "verification_methods").bind Json.array? =
        some (i.verificationMethods.map .string) := by
      rw [hmethods]
      rfl
    have hdid := (Json.bind_eq_some_iff Did.ofJson?_eq_some_iff).2 hdid
    have hendpoint := (Json.optional?_eq_some_iff Json.string?_eq_some_iff rfl).2 hendpoint
    have hclaims := (Json.bind_eq_some_iff ClaimSet.ofJson?_eq_some_iff).2 hclaims
    refine (bind_of_eq_some hdid _).trans ?_
    refine (bind_of_eq_some hitems _).trans ?_
    refine (bind_of_eq_some (Json.mapM_string?_eq_some_iff.2 rfl) _).trans ?_
    refine (bind_of_eq_some hendpoint _).trans ?_
    exact bind_of_eq_some hclaims _

theorem standsIn_toJson (i : IdentityDescriptor) : i.StandsIn i.toJson := by
  obtain ⟨did, methods, endpoint, claims⟩ := i
  exact {
    did := ⟨did.toJson, rfl, did.standsIn_toJson⟩
    verificationMethods := rfl
    credentialsEndpoint := by
      cases endpoint with
      | none => exact .inl rfl
      | some e => exact ⟨.string e, rfl, rfl⟩
    presentedClaims := ⟨claims.toJson, by cases endpoint <;> rfl, claims.standsIn_toJson⟩ }

end IdentityDescriptor

namespace VerifiedClaims

structure StandsIn (c : VerifiedClaims) (v : Json) : Prop where
  participantId : ∃ w ∈ v.part? 2 0 "participant_id", c.participantId.StandsIn w
  claims : ∃ w ∈ v.part? 2 1 "claims", c.claims.StandsIn w

theorem ofJson?_eq_some_iff {v : Json} {c : VerifiedClaims} :
    ofJson? v = some c ↔ c.StandsIn v := by
  constructor
  · intro h
    obtain ⟨id, hid, h⟩ := Option.bind_eq_some_iff.1 h
    obtain ⟨claims, hclaims, h⟩ := Option.bind_eq_some_iff.1 h
    cases h
    exact {
      participantId := (Json.bind_eq_some_iff ParticipantId.ofJson?_eq_some_iff).1 hid
      claims := (Json.bind_eq_some_iff ClaimSet.ofJson?_eq_some_iff).1 hclaims }
  · rintro ⟨hid, hclaims⟩
    have hid := (Json.bind_eq_some_iff ParticipantId.ofJson?_eq_some_iff).2 hid
    have hclaims := (Json.bind_eq_some_iff ClaimSet.ofJson?_eq_some_iff).2 hclaims
    exact (bind_of_eq_some hid _).trans (bind_of_eq_some hclaims _)

theorem standsIn_toJson (c : VerifiedClaims) : c.StandsIn c.toJson where
  participantId := ⟨c.participantId.toJson, rfl, rfl⟩
  claims := ⟨c.claims.toJson, rfl, c.claims.standsIn_toJson⟩

end VerifiedClaims

namespace Decision

theorem ofJson?_toJson (d : Decision) : ofJson? d.toJson = some d := by
  cases d <;> rfl

end Decision

namespace Record

/-- The numbers are in the range of their fields, and the instants have texts of their own. -/
structure IsWritable (r : Record) : Prop where
  retryCount_le : r.retryCount ≤ max32
  version_le : r.version ≤ max64
  stateTimestamp : r.stateTimestamp.IsRegular
  nextAttemptAt : r.nextAttemptAt.IsRegular
  createdAt : r.createdAt.IsRegular

structure StandsIn (r : Record) (v : Json) : Prop where
  id : ∃ w ∈ v.part? 11 0 "participant_id", r.id.StandsIn w
  did : ∃ w ∈ v.part? 11 1 "did", r.did.StandsIn w
  state : ∃ w ∈ v.part? 11 2 "state", w.Names r.state.label
  stateTimestamp : ∃ w ∈ v.part? 11 3 "state_timestamp", r.stateTimestamp.StandsIn w
  retryCount : ∃ w ∈ v.part? 11 4 "retry_count", Json.IsNat max32 r.retryCount w
  errorDetail : Json.MayHold Json.IsText (v.part? 11 5 "error_detail") r.errorDetail
  nextAttemptAt : ∃ w ∈ v.part? 11 6 "next_attempt_at", r.nextAttemptAt.StandsIn w
  identity : Json.MayHold IdentityDescriptor.StandsIn (v.part? 11 7 "identity") r.identity
  verifiedClaims :
    Json.MayHold VerifiedClaims.StandsIn (v.part? 11 8 "verified_claims") r.verifiedClaims
  createdAt : ∃ w ∈ v.part? 11 9 "created_at", r.createdAt.StandsIn w
  version : ∃ w ∈ v.part? 11 10 "version", Json.IsNat max64 r.version w

/-- A record is read exactly from the values that have all of its parts. -/
theorem ofJson?_eq_some_iff {v : Json} {r : Record} : ofJson? v = some r ↔ r.StandsIn v := by
  constructor
  · intro h
    obtain ⟨id, hid, h⟩ := Option.bind_eq_some_iff.1 h
    obtain ⟨did, hdid, h⟩ := Option.bind_eq_some_iff.1 h
    obtain ⟨state, hstate, h⟩ := Option.bind_eq_some_iff.1 h
    obtain ⟨stateTimestamp, hstateTimestamp, h⟩ := Option.bind_eq_some_iff.1 h
    obtain ⟨retryCount, hretryCount, h⟩ := Option.bind_eq_some_iff.1 h
    obtain ⟨errorDetail, herrorDetail, h⟩ := Option.bind_eq_some_iff.1 h
    obtain ⟨nextAttemptAt, hnextAttemptAt, h⟩ := Option.bind_eq_some_iff.1 h
    obtain ⟨identity, hidentity, h⟩ := Option.bind_eq_some_iff.1 h
    obtain ⟨verifiedClaims, hverifiedClaims, h⟩ := Option.bind_eq_some_iff.1 h
    obtain ⟨createdAt, hcreatedAt, h⟩ := Option.bind_eq_some_iff.1 h
    obtain ⟨version, hversion, h⟩ := Option.bind_eq_some_iff.1 h
    cases h
    exact {
      id := (Json.bind_eq_some_iff ParticipantId.ofJson?_eq_some_iff).1 hid
      did := (Json.bind_eq_some_iff Did.ofJson?_eq_some_iff).1 hdid
      state := (Json.bind_eq_some_iff State.ofJson?_eq_some_iff).1 hstate
      stateTimestamp := (Json.bind_eq_some_iff Instant.ofJson?_eq_some_iff).1 hstateTimestamp
      retryCount := (Json.bind_eq_some_iff Json.nat?_eq_some_iff).1 hretryCount
      errorDetail := (Json.optional?_eq_some_iff Json.string?_eq_some_iff rfl).1 herrorDetail
      nextAttemptAt := (Json.bind_eq_some_iff Instant.ofJson?_eq_some_iff).1 hnextAttemptAt
      identity :=
        (Json.optional?_eq_some_iff IdentityDescriptor.ofJson?_eq_some_iff rfl).1 hidentity
      verifiedClaims :=
        (Json.optional?_eq_some_iff VerifiedClaims.ofJson?_eq_some_iff rfl).1 hverifiedClaims
      createdAt := (Json.bind_eq_some_iff Instant.ofJson?_eq_some_iff).1 hcreatedAt
      version := (Json.bind_eq_some_iff Json.nat?_eq_some_iff).1 hversion }
  · intro h
    have hid := (Json.bind_eq_some_iff ParticipantId.ofJson?_eq_some_iff).2 h.id
    have hdid := (Json.bind_eq_some_iff Did.ofJson?_eq_some_iff).2 h.did
    have hstate := (Json.bind_eq_some_iff State.ofJson?_eq_some_iff).2 h.state
    have hstateTimestamp := (Json.bind_eq_some_iff Instant.ofJson?_eq_some_iff).2 h.stateTimestamp
    have hretryCount := (Json.bind_eq_some_iff Json.nat?_eq_some_iff).2 h.retryCount
    have herrorDetail :=
      (Json.optional?_eq_some_iff Json.string?_eq_some_iff rfl).2 h.errorDetail
    have hnextAttemptAt := (Json.bind_eq_some_iff Instant.ofJson?_eq_some_iff).2 h.nextAttemptAt
    have hidentity :=
      (Json.optional?_eq_some_iff IdentityDescriptor.ofJson?_eq_some_iff rfl).2 h.identity
    have hverifiedClaims :=
      (Json.optional?_eq_some_iff VerifiedClaims.ofJson?_eq_some_iff rfl).2 h.verifiedClaims
    have hcreatedAt := (Json.bind_eq_some_iff Instant.ofJson?_eq_some_iff).2 h.createdAt
    have hversion := (Json.bind_eq_some_iff Json.nat?_eq_some_iff).2 h.version
    -- The parts are read in this order, and none of them fails.
    refine (bind_of_eq_some hid _).trans ?_
    refine (bind_of_eq_some hdid _).trans ?_
    refine (bind_of_eq_some hstate _).trans ?_
    refine (bind_of_eq_some hstateTimestamp _).trans ?_
    refine (bind_of_eq_some hretryCount _).trans ?_
    refine (bind_of_eq_some herrorDetail _).trans ?_
    refine (bind_of_eq_some hnextAttemptAt _).trans ?_
    refine (bind_of_eq_some hidentity _).trans ?_
    refine (bind_of_eq_some hverifiedClaims _).trans ?_
    refine (bind_of_eq_some hcreatedAt _).trans ?_
    exact bind_of_eq_some hversion _

theorem mayHold_orNull {α : Type} {P : α → Json → Prop} {write : α → Json}
    (h : ∀ a, P a (write a)) (a : Option α) : Json.MayHold P (some (orNull write a)) a := by
  cases a with
  | none => exact .inr rfl
  | some a => exact ⟨write a, rfl, h a⟩

/-- A record that can be written stands in what is written of it. -/
theorem standsIn_toJson {r : Record} (h : r.IsWritable) : r.StandsIn r.toJson where
  id := ⟨r.id.toJson, rfl, rfl⟩
  did := ⟨r.did.toJson, rfl, r.did.standsIn_toJson⟩
  state := ⟨r.state.toJson, rfl, .inl rfl⟩
  stateTimestamp := ⟨r.stateTimestamp.toJson, rfl, Instant.standsIn_toJson h.stateTimestamp⟩
  retryCount := ⟨.int r.retryCount, rfl, rfl, h.retryCount_le⟩
  errorDetail := mayHold_orNull (P := Json.IsText) (fun _ => rfl) r.errorDetail
  nextAttemptAt := ⟨r.nextAttemptAt.toJson, rfl, Instant.standsIn_toJson h.nextAttemptAt⟩
  identity := mayHold_orNull IdentityDescriptor.standsIn_toJson r.identity
  verifiedClaims := mayHold_orNull VerifiedClaims.standsIn_toJson r.verifiedClaims
  createdAt := ⟨r.createdAt.toJson, rfl, Instant.standsIn_toJson h.createdAt⟩
  version := ⟨.int r.version, rfl, rfl, h.version_le⟩

/-- What was read as a record can be written. -/
theorem StandsIn.isWritable {r : Record} {v : Json} (h : r.StandsIn v) : r.IsWritable := by
  obtain ⟨_, -, hretryCount⟩ := h.retryCount
  obtain ⟨_, -, hversion⟩ := h.version
  obtain ⟨_, -, hstateTimestamp⟩ := h.stateTimestamp
  obtain ⟨_, -, hnextAttemptAt⟩ := h.nextAttemptAt
  obtain ⟨_, -, hcreatedAt⟩ := h.createdAt
  exact {
    retryCount_le := hretryCount.2
    version_le := hversion.2
    stateTimestamp := hstateTimestamp.isRegular
    nextAttemptAt := hnextAttemptAt.isRegular
    createdAt := hcreatedAt.isRegular }

end Record

namespace View

structure IsWritable (view : View) : Prop where
  retryCount_le : view.retryCount ≤ max32
  stateTimestamp : view.stateTimestamp.IsRegular

structure StandsIn (view : View) (v : Json) : Prop where
  id : ∃ w ∈ v.part? 7 0 "participant_id", view.id.StandsIn w
  did : ∃ w ∈ v.part? 7 1 "did", view.did.StandsIn w
  status : ∃ w ∈ v.part? 7 2 "status", w.Names view.status.label
  state : ∃ w ∈ v.part? 7 3 "state", w.Names view.state.label
  errorDetail : Json.MayHold Json.IsText (v.part? 7 4 "error_detail") view.errorDetail
  retryCount : ∃ w ∈ v.part? 7 5 "retry_count", Json.IsNat max32 view.retryCount w
  stateTimestamp : ∃ w ∈ v.part? 7 6 "state_timestamp", view.stateTimestamp.StandsIn w

theorem ofJson?_eq_some_iff {v : Json} {view : View} :
    ofJson? v = some view ↔ view.StandsIn v := by
  constructor
  · intro h
    obtain ⟨id, hid, h⟩ := Option.bind_eq_some_iff.1 h
    obtain ⟨did, hdid, h⟩ := Option.bind_eq_some_iff.1 h
    obtain ⟨status, hstatus, h⟩ := Option.bind_eq_some_iff.1 h
    obtain ⟨state, hstate, h⟩ := Option.bind_eq_some_iff.1 h
    obtain ⟨errorDetail, herrorDetail, h⟩ := Option.bind_eq_some_iff.1 h
    obtain ⟨retryCount, hretryCount, h⟩ := Option.bind_eq_some_iff.1 h
    obtain ⟨stateTimestamp, hstateTimestamp, h⟩ := Option.bind_eq_some_iff.1 h
    cases h
    exact {
      id := (Json.bind_eq_some_iff ParticipantId.ofJson?_eq_some_iff).1 hid
      did := (Json.bind_eq_some_iff Did.ofJson?_eq_some_iff).1 hdid
      status := (Json.bind_eq_some_iff Status.ofJson?_eq_some_iff).1 hstatus
      state := (Json.bind_eq_some_iff State.ofJson?_eq_some_iff).1 hstate
      errorDetail := (Json.optional?_eq_some_iff Json.string?_eq_some_iff rfl).1 herrorDetail
      retryCount := (Json.bind_eq_some_iff Json.nat?_eq_some_iff).1 hretryCount
      stateTimestamp := (Json.bind_eq_some_iff Instant.ofJson?_eq_some_iff).1 hstateTimestamp }
  · intro h
    have hid := (Json.bind_eq_some_iff ParticipantId.ofJson?_eq_some_iff).2 h.id
    have hdid := (Json.bind_eq_some_iff Did.ofJson?_eq_some_iff).2 h.did
    have hstatus := (Json.bind_eq_some_iff Status.ofJson?_eq_some_iff).2 h.status
    have hstate := (Json.bind_eq_some_iff State.ofJson?_eq_some_iff).2 h.state
    have herrorDetail :=
      (Json.optional?_eq_some_iff Json.string?_eq_some_iff rfl).2 h.errorDetail
    have hretryCount := (Json.bind_eq_some_iff Json.nat?_eq_some_iff).2 h.retryCount
    have hstateTimestamp := (Json.bind_eq_some_iff Instant.ofJson?_eq_some_iff).2 h.stateTimestamp
    refine (bind_of_eq_some hid _).trans ?_
    refine (bind_of_eq_some hdid _).trans ?_
    refine (bind_of_eq_some hstatus _).trans ?_
    refine (bind_of_eq_some hstate _).trans ?_
    refine (bind_of_eq_some herrorDetail _).trans ?_
    refine (bind_of_eq_some hretryCount _).trans ?_
    exact bind_of_eq_some hstateTimestamp _

theorem standsIn_toJson {view : View} (h : view.IsWritable) : view.StandsIn view.toJson := by
  obtain ⟨id, did, status, state, errorDetail, retryCount, stateTimestamp⟩ := view
  exact {
    id := ⟨id.toJson, rfl, rfl⟩
    did := ⟨did.toJson, rfl, did.standsIn_toJson⟩
    status := ⟨status.toJson, rfl, .inl rfl⟩
    state := ⟨state.toJson, rfl, .inl rfl⟩
    errorDetail := by
      cases errorDetail with
      | none => exact .inl rfl
      | some detail => exact ⟨.string detail, rfl, rfl⟩
    -- The fields behind the detail are found past it, or where it would stand.
    retryCount := ⟨.int retryCount, by cases errorDetail <;> rfl, rfl, h.retryCount_le⟩
    stateTimestamp := ⟨stateTimestamp.toJson, by cases errorDetail <;> rfl,
      Instant.standsIn_toJson h.stateTimestamp⟩ }

theorem StandsIn.isWritable {view : View} {v : Json} (h : view.StandsIn v) : view.IsWritable := by
  obtain ⟨_, -, hretryCount⟩ := h.retryCount
  obtain ⟨_, -, hstateTimestamp⟩ := h.stateTimestamp
  exact ⟨hretryCount.2, hstateTimestamp.isRegular⟩

end View

namespace Record

structure SpellsDids (r : Record) (v : Json) : Prop where
  -- The texts from which the identifiers come, without the white space around them.
  did : ∃ raw, v.part? 11 1 "did" = some (.string raw) ∧
    Did.Spells raw r.did.method r.did.specific ∧ r.did.text = Text.trimmed raw
  identity : ∀ i, r.identity = some i → ∃ w raw, v.part? 11 7 "identity" = some w ∧
    w.part? 4 0 "did" = some (.string raw) ∧
      Did.Spells raw i.did.method i.did.specific ∧ i.did.text = Text.trimmed raw

theorem StandsIn.spellsDids {r : Record} {v : Json} (h : r.StandsIn v) : r.SpellsDids v where
  did := by
    obtain ⟨_, hw, raw, rfl, hspells⟩ := h.did
    exact ⟨raw, hw, hspells, hspells.trimmed.symm⟩
  identity := by
    intro i hi
    have hheld := h.identity
    rw [hi] at hheld
    obtain ⟨w, hw, hstands⟩ := hheld
    obtain ⟨_, hu, raw, rfl, hspells⟩ := hstands.did
    exact ⟨w, raw, hw, hu, hspells, hspells.trimmed.symm⟩

/-- What is written is read again as the same, provided that the numbers are in range and the texts
of the instants are read as these. A value is read as a record exactly if it has all parts of it,
and the record is then written and read again. -/
theorem reading_undoes_writing :
    ((∀ t : Instant, Instant.ofText? t.text = some t ↔ t.IsRegular) ∧
      (∀ r : Record, ofJson? r.toJson = some r ↔ r.IsWritable) ∧
      (∀ view : View, View.ofJson? view.toJson = some view ↔ view.IsWritable) ∧
      (∀ i, IdentityDescriptor.ofJson? i.toJson = some i) ∧
      (∀ c, VerifiedClaims.ofJson? c.toJson = some c) ∧
      ∀ d, Decision.ofJson? d.toJson = some d) ∧
    ∀ v r, (ofJson? v = some r ↔ r.StandsIn v) ∧
      (ofJson? v = some r → r.SpellsDids v ∧ ofJson? r.toJson = some r) := by
  refine ⟨⟨fun _ => Instant.ofText?_text_iff, ?_, ?_, ?_, ?_, Decision.ofJson?_toJson⟩, ?_⟩
  · intro r
    rw [ofJson?_eq_some_iff]
    exact ⟨StandsIn.isWritable, standsIn_toJson⟩
  · intro view
    rw [View.ofJson?_eq_some_iff]
    exact ⟨View.StandsIn.isWritable, View.standsIn_toJson⟩
  · intro i
    exact IdentityDescriptor.ofJson?_eq_some_iff.2 i.standsIn_toJson
  · intro c
    exact VerifiedClaims.ofJson?_eq_some_iff.2 c.standsIn_toJson
  · intro v r
    refine ⟨ofJson?_eq_some_iff, fun h => ?_⟩
    have hstands := ofJson?_eq_some_iff.1 h
    exact ⟨hstands.spellsDids, ofJson?_eq_some_iff.2 (standsIn_toJson hstands.isWritable)⟩

def untidy : Json :=
  -- White space around the identifiers, an unknown field, parts that are missing or null, a leap
  -- second, an hour of another clock, and the state as an object.
  .object [
  ("colour", .string "red"),
  ("did", .string " did:web:participant\n"),
  ("participant_id", .string "1"),
  ("state", .object [("VERIFYING_CREDENTIALS", .null)]),
  ("state_timestamp", .string "2016-12-31T23:59:60Z"),
  ("retry_count", .int 0),
  ("next_attempt_at", .string "2017-01-01T01:00:00+01:00"),
  ("identity", .object [
    ("did", .string "did:web:participant "),
    ("verification_methods", .array [.string "key-1"]),
    ("credentials_endpoint", .null),
    ("presented_claims", .object [("b", .bool true), ("a", .null)])]),
  ("verified_claims", .null),
  ("created_at", .string "2016-12-31T23:00:00.5Z"),
  ("version", .int 3)]

/-- The claims are put in order, and the leap second is kept as one. -/
theorem untidy_record_is_kept : ∃ r, ofJson? untidy = some r ∧ r.state = .verifyingCredentials ∧
    r.did.text = "did:web:participant" ∧ r.stateTimestamp.isLeap = true ∧
    r.identity.map (fun i => i.presentedClaims.entries.map Prod.fst) = some ["a", "b"] ∧
    ofJson? r.toJson = some r := by
  have hspells : ∀ raw, Text.trimmed raw = "did:web:participant" →
      Did.Spells raw "web" "participant" :=
    fun raw h =>
      ⟨h, by decide, fun c hc => isMethodChar_iff.1 (List.all_eq_true.1 (by decide) c hc), by decide⟩
  have htrimmed : Text.trimmed "did:web:participant" = "did:web:participant" := by decide +kernel
  let did : Did := ⟨"web", "participant", (hspells _ htrimmed).wellFormed⟩
  have hdid : ∀ raw, Text.trimmed raw = "did:web:participant" → did.StandsIn (.string raw) :=
    fun raw h => ⟨raw, rfl, hspells raw h⟩
  let entered : Instant := ⟨1483228799, 1000000000, by decide, by decide, by decide⟩
  have hentered : Instant.ofText? "2016-12-31T23:59:60Z" = some entered := by decide +kernel
  let next : Instant := ⟨1483228800, 0, by decide, by decide, by decide⟩
  have hnext : Instant.ofText? "2017-01-01T01:00:00+01:00" = some next := by decide +kernel
  let created : Instant := ⟨1483225200, 500000000, by decide, by decide, by decide⟩
  have hcreated : Instant.ofText? "2016-12-31T23:00:00.5Z" = some created := by decide +kernel
  let identity : IdentityDescriptor :=
    ⟨did, ["key-1"], none, .ofList [("a", .null), ("b", .bool true)]⟩
  let r : Record := {
    id := ⟨"1"⟩
    did := did
    state := .verifyingCredentials
    stateTimestamp := entered
    retryCount := 0
    errorDetail := none
    nextAttemptAt := next
    identity := some identity
    verifiedClaims := none
    createdAt := created
    version := 3 }
  have hstands : r.StandsIn untidy := {
    id := ⟨_, rfl, rfl⟩
    did := ⟨_, rfl, hdid _ (by decide +kernel)⟩
    state := ⟨_, rfl, .inr rfl⟩
    stateTimestamp := ⟨_, rfl, _, rfl, hentered⟩
    retryCount := ⟨_, rfl, rfl, Nat.zero_le max32⟩
    errorDetail := .inl rfl
    nextAttemptAt := ⟨_, rfl, _, rfl, hnext⟩
    identity := ⟨_, rfl, {
      did := ⟨_, rfl, hdid _ (by decide +kernel)⟩
      verificationMethods := rfl
      credentialsEndpoint := .inr rfl
      presentedClaims := ⟨_, rfl, _, rfl, rfl⟩ }⟩
    verifiedClaims := .inr rfl
    createdAt := ⟨_, rfl, _, rfl, hcreated⟩
    version := ⟨_, rfl, rfl, show 3 ≤ max64 by decide⟩ }
  obtain ⟨-, hreads⟩ := reading_undoes_writing
  obtain ⟨hiff, hagain⟩ := hreads untidy r
  have hread := hiff.2 hstands
  obtain ⟨-, hkept⟩ := hagain hread
  exact ⟨r, hread, rfl, rfl, rfl, rfl, hkept⟩

end Record

end Onboarding
