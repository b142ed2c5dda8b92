import Mathlib.Data.List.Flatten
import Onboarding.Proofs.History
import Onboarding.Proofs.Runs

namespace Onboarding

namespace Attempt

structure Resolves (tuning : Tuning) (identity : IdentityDescriptor) (a : Attempt) : Prop where
  target : a.written.state = .verifyingCredentials
  told : ∃ reply, a.call = some (.resolution a.read.did reply) ∧ reply.Brings tuning identity
  kept : a.written.identity = some identity

structure Verifies (tuning : Tuning) (identity : IdentityDescriptor) (claims : VerifiedClaims)
    (a : Attempt) : Prop where
  source : a.read.state = .verifyingCredentials
  target : a.written.state = .evaluatingPolicy
  known : a.read.identity = some identity
  told : ∃ reply, a.call = some (.verification a.read.id identity.presentedClaims reply) ∧
    reply.Brings tuning claims
  kept : a.written.identity = some identity ∧ a.written.verifiedClaims = some claims

structure Allows (tuning : Tuning) (claims : VerifiedClaims) (a : Attempt) : Prop where
  source : a.read.state = .evaluatingPolicy
  target : a.written.state = .onboarded
  known : a.read.verifiedClaims = some claims
  told : ∃ reply, a.call = some (.evaluation claims reply) ∧ reply.Brings tuning .allow
  kept : a.written.identity = a.read.identity ∧ a.written.verifiedClaims = some claims

variable {κ : Type} [Collaborators κ] {tuning : Tuning} {a : Attempt}

/-- A failure that may pass leads back to the beginning or leaves the record in its state. -/
theorem onTransient_cases {s : State} {route : Route} {fallback : Fallback}
    (hr : Route.of? s = some route) (hf : route.onFailure = some fallback) :
    fallback.onTransient = .onboardingInitiated ∨ fallback.onTransient = s := by
  cases s <;> cases hr <;> cases hf <;> decide

/-- What an attempt writes is at the beginning or at a bad end, or has been brought on by an answer,
or is where it was. -/
theorem IsGenuine.written_cases (h : a.IsGenuine κ tuning) :
    (a.written.state = .onboardingInitiated ∨ a.written.state = .verifyingIdentity ∨
      a.written.state.isFailure = true) ∨
    (∃ identity, a.Resolves tuning identity) ∨
    (∃ identity claims, a.Verifies tuning identity claims) ∨
    (∃ claims, a.Allows tuning claims) ∨
    (a.written.state = a.read.state ∧ a.written.identity = a.read.identity ∧
      a.written.verifiedClaims = a.read.verifiedClaims) := by
  obtain ⟨-, hfail⟩ := Route.edges_of_of?_eq_some h.routed
  rw [written_state, written_identity, written_verifiedClaims]
  -- A retry is the only course that brings nothing and may leave the record in its state.
  cases h.course with
  | begun _ _ _ hn =>
    left
    rw [hn]
    exact Or.inr (Or.inl rfl)
  | resolved reply identity _ hc hb _ hn =>
    refine Or.inr (Or.inl ⟨identity, ?_, ⟨reply, hc, hb⟩, ?_⟩)
    · rw [written_state, hn]
      rfl
    · rw [written_identity, hn]
      rfl
  | verified identity reply claims hs hi hc hb _ hn =>
    refine Or.inr (Or.inr (Or.inl ⟨identity, claims, hs, ?_, hi, ⟨reply, hc, hb⟩, ?_, ?_⟩))
    · rw [written_state, hn]
      rfl
    · rw [written_identity, hn]
      exact hi
    · rw [written_verifiedClaims, hn]
      rfl
  | allowed claims reply hs hv hc hb _ hn =>
    refine Or.inr (Or.inr (Or.inr (Or.inl ⟨claims, hs, ?_, hv, ⟨reply, hc, hb⟩, ?_, ?_⟩)))
    · rw [written_state, hn]
      rfl
    · rw [written_identity, hn]
      rfl
    · rw [written_verifiedClaims, hn]
      exact hv
  | denied _ _ _ _ _ _ _ _ hn =>
    left
    rw [hn]
    exact Or.inr (Or.inr rfl)
  | withoutIdentity _ _ _ _ hn =>
    left
    rw [hn]
    exact Or.inr (Or.inr rfl)
  | withoutClaims _ _ _ _ hn =>
    left
    rw [hn]
    exact Or.inr (Or.inr rfl)
  | refused _ fallback _ _ _ hf _ _ hn =>
    left
    rw [hn]
    exact Or.inr (Or.inr (hfail fallback hf).2.2)
  | exhausted _ fallback _ _ _ hf _ _ _ hn =>
    left
    rw [hn]
    exact Or.inr (Or.inr (hfail fallback hf).2.2)
  | deferred _ fallback _ _ _ hf _ _ _ hn =>
    rw [hn]
    rcases onTransient_cases h.routed hf with ht | ht
    · exact Or.inl (Or.inl ht)
    · exact Or.inr (Or.inr (Or.inr (Or.inr ⟨ht, rfl, rfl⟩)))

end Attempt

namespace History

open Attempt

variable {κ : Type} [Collaborators κ] {tuning : Tuning} {past : List Attempt} {r : Record}

/-- Credentials are verified only after an identity was brought. -/
theorem exists_resolves (h : History κ tuning past r) (hs : r.state = .verifyingCredentials) :
    ∃ identity a, r.identity = some identity ∧ a.Resolves tuning identity ∧
      [a].Sublist past := by
  induction h with
  | new => cases hs
  | @step past b h hb ih =>
    rcases hb.written_cases with
      ht | ⟨identity, hres⟩ | ⟨identity, claims, hver⟩ | ⟨claims, hall⟩ | ⟨hstay, hidentity, -⟩
    · rw [hs] at ht
      rcases ht with ht | ht | ht <;> cases ht
    · exact ⟨identity, b, hres.kept, hres, List.sublist_append_right past [b]⟩
    · rw [hver.target] at hs
      cases hs
    · rw [hall.target] at hs
      cases hs
    · rw [hstay] at hs
      obtain ⟨identity, a, hi, hres, hsub⟩ := ih hs
      rw [← hidentity] at hi
      exact ⟨identity, a, hi, hres, hsub.trans (List.sublist_append_left past [b])⟩

/-- Membership is decided on only after an identity and the claims of its credentials were brought,
in this order. -/
theorem exists_verifies (h : History κ tuning past r) (hs : r.state = .evaluatingPolicy) :
    ∃ identity claims a₁ a₂, r.identity = some identity ∧ r.verifiedClaims = some claims ∧
      a₁.Resolves tuning identity ∧ a₂.Verifies tuning identity claims ∧
      [a₁, a₂].Sublist past := by
  induction h with
  | new => cases hs
  | @step past b h hb ih =>
    -- The last attempt has brought the claims, or has left the record as it was.
    rcases hb.written_cases with
      ht | ⟨identity, hres⟩ | ⟨identity, claims, hver⟩ | ⟨claims, hall⟩ |
        ⟨hstay, hidentity, hclaims⟩
    · rw [hs] at ht
      rcases ht with ht | ht | ht <;> cases ht
    · rw [hres.target] at hs
      cases hs
    · obtain ⟨identity', a, hi, hres, hsub⟩ := h.exists_resolves hver.source
      rw [hver.known] at hi
      cases hi
      exact ⟨identity, claims, a, b, hver.kept.1, hver.kept.2, hres, hver,
        hsub.append (List.Sublist.refl [b])⟩
    · rw [hall.target] at hs
      cases hs
    · rw [hstay] at hs
      obtain ⟨identity, claims, a₁, a₂, hi, hv, hres, hver, hsub⟩ := ih hs
      rw [← hidentity] at hi
      rw [← hclaims] at hv
      exact ⟨identity, claims, a₁, a₂, hi, hv, hres, hver,
        hsub.trans (List.sublist_append_left past [b])⟩

/-- Who is onboarded was brought there by an identity, verified claims and an approval, in this
order. -/
theorem exists_allows (h : History κ tuning past r) (hs : r.state = .onboarded) :
    ∃ identity claims a₁ a₂ a₃, r.identity = some identity ∧ r.verifiedClaims = some claims ∧
      a₁.Resolves tuning identity ∧ a₂.Verifies tuning identity claims ∧ a₃.Allows tuning claims ∧
      a₃.written = r ∧ [a₁, a₂, a₃].Sublist past := by
  cases h with
  | new => cases hs
  | @step past b h hb =>
    rcases hb.written_cases with
      ht | ⟨identity, hres⟩ | ⟨identity, claims, hver⟩ | ⟨claims, hall⟩ | ⟨hstay, -, -⟩
    · rw [hs] at ht
      rcases ht with ht | ht | ht <;> cases ht
    · rw [hres.target] at hs
      cases hs
    · rw [hver.target] at hs
      cases hs
    · obtain ⟨identity, claims', a₁, a₂, hi, hv, hres, hver, hsub⟩ := h.exists_verifies hall.source
      rw [hall.known] at hv
      cases hv
      refine ⟨identity, claims, a₁, a₂, b, ?_, hall.kept.2, hres, hver, hall, rfl, ?_⟩
      · rw [hall.kept.1, hi]
      · exact hsub.append (List.Sublist.refl [b])
    · -- No attempt is made with a record that has ended.
      have hread : b.read.state.isTerminal = false := hb.leadsTo.not_isTerminal
      rw [← hstay, hs] at hread
      cases hread

end History

namespace World

variable {κ : Type} [Collaborators κ] {tuning : Tuning} {k : κ} {w v : World κ}
  {deeds : List Deed}

/-- What was called in a run was told by the services as they were then. -/
theorem Run.isReplyOf {before after : List Deed} {a : Attempt}
    (h : Run tuning w (before ++ .called a :: after) v) :
    ∃ u, Run tuning w before u ∧ ∀ call ∈ a.call, call.IsReplyOf u.registry.collaborators := by
  obtain ⟨u, x, hu, hm, -⟩ := h.split rfl
  cases hm with
  | call hr hprepare => exact ⟨u, hu, (Registry.isGenuine_of_prepare_eq hprepare).2.2.2⟩

/-- Whoever is onboarded was approved in three answers, each of them in time: the identity of the
participant, the verification of what this identity presents, and the approval of what was
verified. They came one after the other, the services gave them when they were asked for this
record, and each was written before the next was asked for. -/
theorem Run.onboarded_is_approved (h : Run tuning (initial k) deeds w) {r : Record}
    (hr : r ∈ w.registry.store.records) (hs : r.state = .onboarded) :
    ∃ identity claims a₁ a₂ a₃,
      r.identity = some identity ∧ r.verifiedClaims = some claims ∧
      a₁.Resolves tuning identity ∧ a₂.Verifies tuning identity claims ∧ a₃.Allows tuning claims ∧
      a₃.written = r ∧ (∀ a ∈ [a₁, a₂, a₃], a.read.id = r.id ∧ a.read.did = r.did) ∧
      [.called a₁, .swapped a₁, .called a₂, .swapped a₂, .called a₃, .swapped a₃].Sublist deeds ∧
      ∀ before a after, deeds = before ++ .called a :: after →
        ∃ u, Run tuning (initial k) before u ∧
          ∀ call ∈ a.call, call.IsReplyOf u.registry.collaborators := by
  obtain ⟨past, hpast, hsub⟩ := h.documented.stored r hr
  obtain ⟨identity, claims, a₁, a₂, a₃, hi, hv, hres, hver, hall, hlast, hthree⟩ :=
    hpast.exists_allows hs
  refine ⟨identity, claims, a₁, a₂, a₃, hi, hv, hres, hver, hall, hlast, ?_, ?_, ?_⟩
  · intro a ha
    exact hpast.read_eq a (hthree.subset ha)
  · have hdeeds : (deedsOf [a₁, a₂, a₃]).Sublist (deedsOf past) := hthree.flatMap _
    exact hdeeds.trans hsub
  · intro before a after hd
    rw [hd] at h
    exact h.isReplyOf

theorem exists_onboarded_approved : ∃ (deeds : List Deed) (w : World (Bureau .welcome)) (r : Record)
    (identity : IdentityDescriptor) (claims : VerifiedClaims) (a₁ a₂ a₃ : Attempt),
    Run {} (initial ⟨.zero⟩) deeds w ∧ r ∈ w.registry.store.records ∧ r.state = .onboarded ∧
      r.identity = some identity ∧ r.verifiedClaims = some claims ∧
      a₁.Resolves {} identity ∧ a₂.Verifies {} identity claims ∧ a₃.Allows {} claims := by
  obtain ⟨deeds, w, hrun, r, hr, hs⟩ := exists_run_onboarded
  obtain ⟨identity, claims, a₁, a₂, a₃, hi, hv, hres, hver, hall, -⟩ :=
    hrun.onboarded_is_approved hr hs
  exact ⟨deeds, w, r, identity, claims, a₁, a₂, a₃, hrun, hr, hs, hi, hv, hres, hver, hall⟩

end World

end Onboarding
