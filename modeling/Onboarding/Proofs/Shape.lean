import Onboarding.Proofs.Budgets

/-!
What a record holds in each state. An attempt writes down what it has found out together with the
state that it brings, so that nothing is missing where it is asked for.
-/

namespace Onboarding

/-- The shape that its state gives to a record. -/
structure Record.Shape (r : Record) : Prop where
  unidentified : r.state ∈ [.onboardingInitiated, .verifyingIdentity] → r.identity = none
  identified : r.state ∈ [.verifyingCredentials, .evaluatingPolicy, .onboarded, .policyDenied] →
    r.identity.isSome = true
  verified : r.verifiedClaims.isSome = true ↔
    r.state ∈ [.evaluatingPolicy, .onboarded, .policyDenied]
  pending : r.state.isTerminal = false → (r.errorDetail.isSome = true ↔ 0 < r.retryCount)
  failed : r.state.isFailure = true → r.errorDetail.isSome = true
  onboarded : r.state = .onboarded → r.errorDetail = none ∧ r.retryCount = 0

namespace Record

variable {r : Record} {phase : Phase}

theorem shape_new (id : ParticipantId) (did : Did) (now : Instant) : (new id did now).Shape := by
  constructor <;> simp [new, State.isFailure]

namespace Shape

theorem identity_ne_none (h : r.Shape) (hs : r.state = .verifyingCredentials) :
    r.identity ≠ none := by
  have hsome : r.identity.isSome = true := h.identified (by rw [hs]; decide)
  exact Option.isSome_iff_ne_none.1 hsome

theorem verifiedClaims_ne_none (h : r.Shape) (hs : r.state = .evaluatingPolicy) :
    r.verifiedClaims ≠ none := by
  have hsome : r.verifiedClaims.isSome = true := h.verified.2 (by rw [hs]; decide)
  exact Option.isSome_iff_ne_none.1 hsome

theorem verifiedClaims_eq_none (h : r.Shape)
    (hs : r.state ∉ [.evaluatingPolicy, .onboarded, .policyDenied]) : r.verifiedClaims = none := by
  rw [← Option.not_isSome_iff_eq_none, h.verified]
  exact hs

/-- What is known of a participant where the question of a phase is asked is what is to be known
after a failure, whether it may pass or not. -/
theorem known (h : r.Shape) (hs : r.state = phase.asking) {target : State}
    (ht : target = phase.retry ∨ target = phase.failure) :
    (target ∈ [.onboardingInitiated, .verifyingIdentity] → r.identity = none) ∧
    (target ∈ [.verifyingCredentials, .evaluatingPolicy, .onboarded, .policyDenied] →
      r.identity.isSome = true) ∧
    (r.verifiedClaims.isSome = true ↔ target ∈ [.evaluatingPolicy, .onboarded, .policyDenied]) := by
  have hu := h.unidentified
  have hi := h.identified
  have hv := h.verified
  rw [hs] at hu hi hv
  rw [hv]
  rcases ht with rfl | rfl <;> cases phase <;>
    simp [Phase.asking, Phase.retry, Phase.failure] at hu hi ⊢ <;> assumption

theorem begun (h : r.Shape) (hs : r.state = .onboardingInitiated) (now : Instant) :
    (r.moved .verifyingIdentity now).Shape := by
  have hidentity : r.identity = none := h.unidentified (by rw [hs]; decide)
  have hclaims : r.verifiedClaims = none := h.verifiedClaims_eq_none (by rw [hs]; decide)
  have hdetail := h.pending (by rw [hs]; rfl)
  constructor <;> simp [moved, hidentity, hclaims, hdetail, State.isFailure]

theorem deferred (h : r.Shape) (hs : r.state = phase.asking) (detail : String)
    (due now : Instant) : (r.deferred phase.retry detail due now).Shape := by
  obtain ⟨hu, hi, hv⟩ := h.known hs (Or.inl rfl)
  refine ⟨hu, hi, hv, ?_, ?_, ?_⟩
  · intro _
    simp [Record.deferred]
  · intro _
    rfl
  · intro ho
    rw [deferred_state] at ho
    cases phase <;> cases ho

theorem ended (h : r.Shape) (hs : r.state = phase.asking) (count : Nat) (detail : String)
    (now : Instant) : ({ r with retryCount := count }.ended phase.failure detail now).Shape := by
  obtain ⟨hu, hi, hv⟩ := h.known hs (Or.inr rfl)
  refine ⟨hu, hi, hv, ?_, ?_, ?_⟩
  · intro ht
    rw [ended_state] at ht
    cases phase <;> cases ht
  · intro _
    rfl
  · intro ho
    rw [ended_state] at ho
    cases phase <;> cases ho

/-- A record gets its identity together with the state that needs it. -/
theorem resolved (h : r.Shape) (hs : r.state = .verifyingIdentity) (identity : IdentityDescriptor)
    (now : Instant) :
    ({ r with identity := some identity }.passed .verifyingCredentials now).Shape := by
  have hclaims : r.verifiedClaims = none := h.verifiedClaims_eq_none (by rw [hs]; decide)
  constructor <;> simp [passed, moved, hclaims, State.isFailure]

theorem checked (h : r.Shape) (hs : r.state = .verifyingCredentials) (claims : VerifiedClaims)
    (now : Instant) :
    ({ r with verifiedClaims := some claims }.passed .evaluatingPolicy now).Shape := by
  have hidentity : r.identity.isSome = true := h.identified (by rw [hs]; decide)
  constructor <;> simp [passed, moved, hidentity, State.isFailure]

theorem allowed (h : r.Shape) (hs : r.state = .evaluatingPolicy) (now : Instant) :
    (r.passed .onboarded now).Shape := by
  have hidentity : r.identity.isSome = true := h.identified (by rw [hs]; decide)
  have hclaims : r.verifiedClaims.isSome = true := h.verified.2 (by rw [hs]; decide)
  constructor <;> simp [passed, moved, hidentity, hclaims, State.isFailure, State.isTerminal]

end Shape

end Record

namespace Attempt

variable {κ : Type} [Collaborators κ] {tuning : Tuning} {a : Attempt}

theorem shape_written (h : a.next.Shape) : a.written.Shape := by
  obtain ⟨hu, hi, hv, hp, hf, ho⟩ := h
  exact ⟨hu, hi, hv, hp, hf, ho⟩

/-- An attempt that finds what it asks about leaves the shape of the state that it brings. -/
theorem IsGenuine.shape (h : a.IsGenuine κ tuning) (hr : a.read.Shape) : a.written.Shape := by
  apply shape_written
  cases h.course with
  | begun hs _ _ hn =>
    rw [hn]
    exact hr.begun hs a.now
  | resolved _ identity hs _ _ _ hn =>
    rw [hn]
    exact hr.resolved hs identity a.now
  | verified _ _ claims hs _ _ _ _ hn =>
    rw [hn]
    exact hr.checked hs claims a.now
  | allowed _ _ hs _ _ _ _ hn =>
    rw [hn]
    exact hr.allowed hs a.now
  | denied _ _ reason hs _ _ _ _ hn =>
    rw [hn]
    exact @Record.Shape.ended a.read .policy hr hs a.read.retryCount _ a.now
  -- The shape of the record that was read leaves out that something is missing.
  | withoutIdentity hs hi _ _ _ => exact absurd hi (hr.identity_ne_none hs)
  | withoutClaims hs hv _ _ _ => exact absurd hv (hr.verifiedClaims_ne_none hs)
  | refused call fallback detail _ hq hf _ _ hn =>
    obtain ⟨-, rfl⟩ := h.route_eq hq hf
    rw [hn]
    exact hr.ended hq.state_eq a.read.retryCount detail a.now
  | exhausted call fallback detail _ hq hf _ _ _ hn =>
    obtain ⟨-, rfl⟩ := h.route_eq hq hf
    rw [hn]
    exact hr.ended hq.state_eq a.read.failures _ a.now
  | deferred call fallback detail _ hq hf _ _ _ hn =>
    obtain ⟨-, rfl⟩ := h.route_eq hq hf
    rw [hn]
    exact hr.deferred hq.state_eq detail _ a.now

end Attempt

def reasonOpenings : List String :=
  ["identity not found", "identity rejected: ", "credentials invalid: ",
    "verification service unreachable: ", "verification call timed out",
    "policy engine unreachable: ", "policy evaluation timed out", "policy denied membership: ",
    "identity resolution timed out after ", "credential verification timed out after ",
    "retry budget exhausted after "]

def IsReason (detail : String) : Prop :=
  ∃ opening ∈ reasonOpenings, ∃ rest, detail = opening ++ rest

/-- A reason begins like a reason, and so differs from texts that do not. -/
theorem IsReason.ne {detail other : String} (h : IsReason detail)
    (ho : ∀ opening ∈ reasonOpenings, ¬opening.toList <+: other.toList) : detail ≠ other := by
  obtain ⟨opening, hopening, rest, rfl⟩ := h
  intro he
  -- If they were the same, the other detail would begin like a reason.
  apply ho opening hopening
  rw [← he, String.toList_append]
  exact List.prefix_append opening.toList rest.toList

theorem isReason_opening {opening : String} (h : opening ∈ reasonOpenings) : IsReason opening :=
  ⟨opening, h, "", (String.append_empty).symm⟩

theorem VerificationError.isReason_message (e : VerificationError) : IsReason e.message := by
  cases e with
  | notFound => exact isReason_opening (by decide)
  | rejected detail => exact ⟨"identity rejected: ", by decide, detail, rfl⟩
  | invalid detail => exact ⟨"credentials invalid: ", by decide, detail, rfl⟩
  | unreachable detail => exact ⟨"verification service unreachable: ", by decide, detail, rfl⟩
  | timeout => exact isReason_opening (by decide)

theorem PolicyError.isReason_message (e : PolicyError) : IsReason e.message := by
  cases e with
  | unreachable detail => exact ⟨"policy engine unreachable: ", by decide, detail, rfl⟩
  | timeout => exact isReason_opening (by decide)

theorem Record.isReason_exhaustion (failures : Nat) (detail : String) :
    IsReason (exhaustion failures detail) := by
  refine ⟨"retry budget exhausted after ", by decide,
    toString failures ++ (" attempts: " ++ detail), ?_⟩
  unfold exhaustion
  rw [String.append_assoc, String.append_assoc]
  rfl

def Answer.detail? : Answer → Option String
  | .denied detail | .failed _ detail => some detail
  | .resolved _ | .verified _ | .allowed => none

theorem Reply.isReason_inTime {ε α : Type} (reply : Reply ε α) (tuning : Tuning)
    {operation : String} (opening rest : String) (kind : ε → FailureKind) {message : ε → String}
    {answer : α → Answer} (ho : opening ∈ reasonOpenings)
    (hl : operation ++ " timed out after " = opening ++ rest) (he : ∀ e, IsReason (message e))
    (ha : ∀ a, ∀ detail ∈ (answer a).detail?, IsReason detail) :
    ∀ detail ∈ (reply.inTime tuning operation kind message answer).detail?, IsReason detail := by
  unfold inTime
  by_cases hlate : reply.isLate tuning
  · -- The operation is named first, and the time that it was given last.
    rw [if_pos hlate]
    intro detail hd
    cases hd
    refine ⟨opening, ho, rest ++ (toString tuning.callTimeout.millis ++ "ms"), ?_⟩
    rw [← String.append_assoc, ← hl]
    simp only [String.append_assoc]
    rfl
  · rw [if_neg hlate]
    cases reply.result with
    | ok a => exact ha a
    | error e =>
      intro detail hd
      cases hd
      exact he e

/-- Whatever a question is answered with, the detail is a reason. -/
theorem Call.isReason_answer (tuning : Tuning) (call : Call) :
    ∀ detail ∈ (call.answer tuning).detail?, IsReason detail := by
  cases call with
  | resolution did reply =>
    refine reply.isReason_inTime tuning "identity resolution timed out after " "" _ (by decide) rfl
      VerificationError.isReason_message ?_
    intro identity detail hd
    cases hd
  | verification id claims reply =>
    refine reply.isReason_inTime tuning "credential verification timed out after " "" _ (by decide)
      rfl VerificationError.isReason_message ?_
    intro claims detail hd
    cases hd
  | evaluation claims reply =>
    refine reply.isReason_inTime tuning "policy evaluation timed out" " after " _ (by decide) rfl
      PolicyError.isReason_message ?_
    intro decision detail hd
    cases decision with
    | allow => cases hd
    | deny reason =>
      cases hd
      exact ⟨"policy denied membership: ", by decide, reason, rfl⟩

namespace Attempt

variable {κ : Type} [Collaborators κ] {tuning : Tuning} {a : Attempt}

/-- An attempt that finds what it asks about keeps the detail or clears it, or tells what came of
its question. -/
theorem IsGenuine.isReason (h : a.IsGenuine κ tuning) (hr : a.read.Shape)
    (hd : ∀ detail ∈ a.read.errorDetail, IsReason detail) :
    ∀ detail ∈ a.written.errorDetail, IsReason detail := by
  rw [written_errorDetail]
  cases h.course with
  | begun _ _ _ hn =>
    rw [hn]
    exact hd
  | resolved _ _ _ _ _ _ hn | verified _ _ _ _ _ _ _ _ hn | allowed _ _ _ _ _ _ _ hn =>
    rw [hn]
    intro detail he
    cases he
  | denied _ _ reason _ _ _ _ _ hn =>
    rw [hn]
    intro detail he
    cases he
    exact ⟨"policy denied membership: ", by decide, reason, rfl⟩
  -- The shape of the record rules these two out.
  | withoutIdentity hs hi _ _ _ => exact absurd hi (hr.identity_ne_none hs)
  | withoutClaims hs hv _ _ _ => exact absurd hv (hr.verifiedClaims_ne_none hs)
  | refused call _ cause _ _ _ ha _ hn | deferred call _ cause _ _ _ ha _ _ hn =>
    rw [hn]
    intro detail he
    cases he
    exact call.isReason_answer tuning cause (by rw [ha]; rfl)
  | exhausted _ _ cause _ _ _ _ _ _ hn =>
    rw [hn]
    intro detail he
    cases he
    exact Record.isReason_exhaustion a.read.failures cause

end Attempt

namespace History

variable {κ : Type} [Collaborators κ] {tuning : Tuning} {past : List Attempt} {r : Record}

/-- A record that was made by attempts has the shape of its state. -/
theorem shape (h : History κ tuning past r) : r.Shape := by
  induction h with
  | new id did now => exact Record.shape_new id did now
  | step _ ha ih => exact ha.shape ih

/-- Every detail in a record that was made by attempts is a reason. -/
theorem isReason (h : History κ tuning past r) : ∀ detail ∈ r.errorDetail, IsReason detail := by
  induction h with
  | new id did now =>
    intro detail hd
    cases hd
  | step h ha ih => exact ha.isReason h.shape ih

end History

namespace World

variable {κ : Type} [Collaborators κ] {tuning : Tuning} {k : κ} {w : World κ} {deeds : List Deed}

/-- The shape of records. Every stored record and every copy of one has the shape of its state; no
detail tells of a missing identity or of missing claims; and only a new start calls nobody, so that
no attempt is ever made without what its question is about. -/
theorem Run.records_have_shape (h : Run tuning (initial k) deeds w) :
    (∀ r ∈ w.registry.store.records, r.Shape ∧
      r.errorDetail ≠ some "identity descriptor missing from record" ∧
      r.errorDetail ≠ some "no verified claims to evaluate") ∧
    (∀ r ∈ w.copies, r.Shape) ∧
    ∀ a, .called a ∈ deeds → a.call = none → a.read.state = .onboardingInitiated := by
  refine ⟨?_, ?_, ?_⟩
  · intro r hr
    obtain ⟨past, hpast, -⟩ := h.documented.stored r hr
    have hreason := hpast.isReason
    refine ⟨hpast.shape, ?_, ?_⟩
    · intro hd
      exact (hreason _ hd).ne (by decide) rfl
    · intro hd
      exact (hreason _ hd).ne (by decide) rfl
  · intro r hr
    obtain ⟨past, hpast, -⟩ := h.documented.copies r hr
    exact hpast.shape
  · intro a ha hc
    obtain ⟨hgen, past, hpast⟩ := h.exists_history_of_called ha
    cases hgen.effect with
    | begun hs => exact hs
    | passed call _ _ hcall | deferred call _ _ _ hcall | refused call _ _ _ hcall
      | exhausted call _ _ _ hcall =>
      rw [hc] at hcall
      cases hcall
    | lacking phase hs _ _ hi => exact (hpast.not_lacking hs hi).elim

theorem onboarded_has_shape : ∃ deeds w r,
    Run {} (initial (⟨.zero⟩ : Bureau .welcome)) deeds w ∧ r ∈ w.registry.store.records ∧
      r.state = .onboarded ∧ r.identity.isSome = true ∧ r.verifiedClaims.isSome = true ∧
      r.errorDetail = none ∧ r.retryCount = 0 := by
  obtain ⟨deeds, w, hrun, r, hr, hs⟩ := exists_run_onboarded
  obtain ⟨hshape, -⟩ := hrun.records_have_shape.1 r hr
  have hidentity : r.identity.isSome = true := hshape.identified (by rw [hs]; decide)
  have hclaims : r.verifiedClaims.isSome = true := hshape.verified.2 (by rw [hs]; decide)
  exact ⟨deeds, w, r, hrun, hr, hs, hidentity, hclaims, hshape.onboarded hs⟩

end World

end Onboarding
