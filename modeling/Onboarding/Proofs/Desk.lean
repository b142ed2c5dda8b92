import Onboarding.Directory
import Onboarding.Proofs.Fixed
import Onboarding.Proofs.Undisturbed

namespace Onboarding

namespace Directory

variable (d : Directory)

theorem eq_notFound_of_resolve_eq_error {did : Did} {e : VerificationError}
    (h : d.resolve did = .error e) : e = .notFound := by
  unfold resolve at h
  cases hm : d.membership? did with
  | none =>
    rw [hm] at h
    cases h
    rfl
  | some member =>
    rw [hm] at h
    cases h

theorem kind_of_verify_eq_error {id : ParticipantId} {claims : ClaimSet} {e : VerificationError}
    (h : verify id claims = .error e) : e.kind = .permanent := by
  unfold verify at h
  by_cases hempty : claims.entries.isEmpty = true
  · rw [if_pos hempty] at h
    cases h
    rfl
  · rw [if_neg hempty] at h
    cases hfind : claims.entries.find? fun e => (e.2.field? "vc").isNone with
    | none =>
      rw [hfind] at h
      cases h
    | some entry =>
      rw [hfind] at h
      cases h
      rfl

/-- The credential that the directory issues passes verification. -/
theorem verify_membershipClaims (id : ParticipantId) (did : Did) (member : Bool) :
    verify id (membershipClaims did member) = .ok ⟨id, membershipClaims did member⟩ := rfl

/-- The policy reads off the credential what the directory knows of its subject. -/
theorem decide_membershipClaims (did : Did) (member : Bool) :
    ({} : ClaimPolicy).decide (membershipClaims did member) =
      if member then .allow else .deny ({} : ClaimPolicy).denial := by
  -- The name of a credential begins as the identifier does, and so is not that of the claim.
  have hname : did.text ++ "#membership" ≠ "gaiaXMember" := by
    intro h
    have hlist := congrArg String.toList h
    simp [Did.text] at hlist
  have hdirect : ({} : ClaimPolicy).isDirect (membershipClaims did member) = false := by
    have hget : (membershipClaims did member).get? "gaiaXMember" = none := by
      simp [ClaimSet.get?, membershipClaims, ClaimSet.ofList, Json.ordered, Json.insert,
        Json.lookup, hname]
    rw [ClaimPolicy.isDirect, hget]
    rfl
  rw [ClaimPolicy.decide, ClaimPolicy.evaluate, if_neg (by rw [hdirect]; exact Bool.false_ne_true)]
  cases member <;> rfl

/-- How the registration of a participant ends, by what the directory knows of it. -/
def fate (did : Did) : State × Option String :=
  match d.membership? did with
  | some true => (.onboarded, none)
  | some false =>
    (.policyDenied, some ("policy denied membership: " ++ ({} : ClaimPolicy).denial))
  | none => (.verificationFailed, some "identity not found")

end Directory

namespace Desk

variable (desk : Desk)

def verdicts : Verdicts where
  resolve := desk.directory.resolve
  verify := Directory.verify
  evaluate claims := desk.policy.decide claims.claims
  resolve_permanent _ _ h := by rw [desk.directory.eq_notFound_of_resolve_eq_error h]; rfl
  verify_permanent _ _ _ h := Directory.kind_of_verify_eq_error h

theorem isStill : IsStill desk := ⟨fun _ => rfl, fun _ _ => rfl, fun _ => rfl⟩

theorem govern (tuning : Tuning) : desk.verdicts.Govern (Fixed desk) tuning := by
  constructor
  · intro _ did
    exact Or.inr (Or.inl rfl)
  · intro _ id claims
    exact Or.inr (Or.inl rfl)
  · intro _ claims
    exact Or.inr (Or.inl rfl)

theorem not_transient_of_inTime {ε α : Type} (reply : Reply ε α) (tuning : Tuning)
    (operation : String) (kind : ε → FailureKind) (message : ε → String) (answer : α → Answer)
    (hprompt : reply.elapsed = .zero)
    (hkind : ∀ e, reply.result = .error e → kind e = .permanent)
    (hanswer : ∀ a detail, answer a ≠ .failed .transient detail) (detail : String) :
    reply.inTime tuning operation kind message answer ≠ .failed .transient detail := by
  rcases reply.inTime_cases tuning operation kind message answer with
    ⟨a, -, hin⟩ | ⟨e, ⟨-, hresult⟩, hin⟩ | ⟨hlate, -⟩
  · rw [hin]
    exact hanswer a detail
  · rw [hin, hkind e hresult]
    nofun
  · -- A reply at once is never late.
    have hlong : tuning.callTimeout.millisUp < reply.elapsed.millisUp := of_decide_eq_true hlate
    rw [hprompt] at hlong
    exact absurd hlong (Nat.not_lt_zero _)

/-- Nobody waits at a desk, and what it cannot do now it cannot do later. -/
theorem undisturbed (tuning : Tuning) : Undisturbed (Fixed desk) tuning := by
  intro _ call hreply
  cases call with
  | resolution did reply =>
    cases hreply
    exact not_transient_of_inTime _ tuning "identity resolution" VerificationError.kind
      VerificationError.message .resolved rfl
      (fun e he => desk.verdicts.resolve_permanent did e he) (by nofun)
  | verification id claims reply =>
    cases hreply
    exact not_transient_of_inTime _ tuning "credential verification" VerificationError.kind
      VerificationError.message .verified rfl
      (fun e he => desk.verdicts.verify_permanent id claims e he) (by nofun)
  | evaluation claims reply =>
    cases hreply
    have hdecision (decision : Decision) (detail : String) :
        Answer.ofDecision decision ≠ .failed .transient detail := by
      cases decision <;> nofun
    exact not_transient_of_inTime _ tuning "policy evaluation" PolicyError.kind
      PolicyError.message .ofDecision rfl (fun e he => by cases he) hdecision

/-- With the policy that is set by default, the directory alone decides. -/
theorem reference_eq_fate (d : Directory) (id : ParticipantId) (did : Did) :
    ((verdicts { directory := d }).reference id did).state = (d.fate did).1 ∧
      ((verdicts { directory := d }).reference id did).errorDetail = (d.fate did).2 := by
  unfold Directory.fate
  cases hm : d.membership? did with
  | none =>
    have hres : (verdicts { directory := d }).resolve did = .error .notFound := by
      simp only [verdicts, Directory.resolve, hm]
    rw [Verdicts.reference, hres]
    exact ⟨rfl, rfl⟩
  | some member =>
    have hres : (verdicts { directory := d }).resolve did = .ok {
        did := did
        verificationMethods := [did.text ++ "#key-1"]
        credentialsEndpoint := none
        presentedClaims := Directory.membershipClaims did member } := by
      simp only [verdicts, Directory.resolve, hm]
    have hver : (verdicts { directory := d }).verify id (Directory.membershipClaims did member) =
        .ok ⟨id, Directory.membershipClaims did member⟩ :=
      Directory.verify_membershipClaims id did member
    have heval : (verdicts { directory := d }).evaluate
        ⟨id, Directory.membershipClaims did member⟩ = _ :=
      Directory.decide_membershipClaims did member
    -- What is issued, verified and decided on all goes back to the one entry.
    simp only [Verdicts.reference, hres, hver, heval]
    cases member <;> exact ⟨rfl, rfl⟩

/-- New registrations are settled by four rounds of cycles, without a failed attempt, and as the
directory has it. -/
theorem exists_drain_eq (d : Directory) {clock : Nat → Instant} {reg : Registry Store Desk}
    {perRound max : Nat} (hdesk : reg.collaborators = { directory := d })
    (hnew : ∀ r ∈ reg.store.records, ∃ id did now, r = .new id did now)
    (hfirst : reg.store.IsReady (clock 0))
    (hlt : ∀ n, n + 1 < 4 * perRound → clock n < clock (n + 1))
    (hcover : reg.store.records.length ≤ perRound * 50) (hmax : 4 * perRound ≤ max) :
    ∃ reports after, Registry.drain {} clock max 0 reg = (.ok reports, after) ∧
      after.store.records.map (fun r => (r.id, r.did)) =
        reg.store.records.map (fun r => (r.id, r.did)) ∧
      ∀ r ∈ after.store.records, r.state.isTerminal = true ∧ r.retryCount = 0 ∧
        (r.state, r.errorDetail) = d.fate r.did := by
  -- The registry works as around services that have no other state, which is known of each attempt.
  let desk : Desk := { directory := d }
  let fixed : Registry Store (Fixed desk) := ⟨reg.store, ⟨⟩, reg.events, reg.waited⟩
  have hreg : reg = fixed.unfix :=
    congrArg (fun k => (⟨reg.store, k, reg.events, reg.waited⟩ : Registry Store Desk)) hdesk
  have hu : Undisturbed (Fixed desk) {} := desk.undisturbed {}
  have hmade : ∀ r ∈ fixed.store.records, Made (Fixed desk) {} r := by
    intro r hr
    obtain ⟨id, did, now, rfl⟩ := hnew r hr
    exact ⟨[], .new id did now⟩
  obtain ⟨reports, n, hdrain, hsettled⟩ := hu.descent.isSettled_drain (hu.pace hlt) hmade hfirst
    (by decide) hcover (Nat.le_refl _) hmax
  refine ⟨reports, (fixed.afterCycles {} clock n).unfix, ?_, ?_, ?_⟩
  · rw [hreg, Registry.unfix_drain desk.isStill, hdrain]
    rfl
  · exact fixed.map_afterCycles {} clock (fun a ha => by rw [ha.leadsTo.id, ha.leadsTo.did]) n
  · -- Each record has a history without setbacks, and one that has ended ends as the reference.
    intro r hr
    obtain ⟨past, hpast⟩ := Registry.forall_afterCycles hu.descent.keeps hmade n r hr
    have hend := hsettled r hr
    have hbudgets : ∀ step, 1 ≤ ({} : Tuning).budgets.maxAttempts step := by
      intro step
      cases step <;> decide
    have hreference := hpast.ending_eq_reference hu hbudgets (desk.govern {}) hend
    obtain ⟨hstate, hdetail⟩ := reference_eq_fate d r.id r.did
    rw [← hreference] at hstate hdetail
    exact ⟨hend, (hpast.undisturbed hu).1, Prod.ext hstate hdetail⟩

end Desk

end Onboarding
