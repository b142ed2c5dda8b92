import Onboarding.Proofs.Exclusion
import Onboarding.Proofs.LifeCycle

/-!
The registrations of a participant, one after the other. A submission finds one record only, the
one that comes last, and takes it for the rest.
-/

namespace Onboarding.World

variable {κ : Type} {w v : World κ} {deeds : List Deed} {deed : Deed}

structure Successive (w : World κ) (deeds : List Deed) : Prop where
  -- Whoever is about to create a record does it alone, under a name that is not taken, and beside
  -- registrations that have failed.
  alone : w.submissions.length ≤ 1
  named : ∀ r ∈ w.registry.store.records, ∃ q, .accepted q ∈ deeds ∧ q.id = r.id
  stamped : ∀ r ∈ w.registry.store.records,
    ∃ q, .created q ∈ deeds ∧ q.did = r.did ∧ q.createdAt = r.createdAt
  unused : ∀ q ∈ w.submissions, ∀ r ∈ w.registry.store.records, r.id ≠ q.id
  clear : ∀ q ∈ w.submissions, ∀ r ∈ w.registry.store.records, r.did = q.did →
    r.state.isFailure = true
  lined : ∀ did, w.registry.store.Lined did

/-- What neither writes to the store nor accepts a submission changes nothing. -/
theorem Successive.idle (hs : w.Successive deeds)
    (hstore : v.registry.store = w.registry.store)
    (hsub : v.submissions.Sublist w.submissions) : v.Successive (deeds ++ [deed]) := by
  constructor
  · exact Nat.le_trans hsub.length_le hs.alone
  · intro r hr
    rw [hstore] at hr
    obtain ⟨q, hq, hid⟩ := hs.named r hr
    exact ⟨q, List.mem_append_left _ hq, hid⟩
  · intro r hr
    rw [hstore] at hr
    obtain ⟨q, hq, hfacts⟩ := hs.stamped r hr
    exact ⟨q, List.mem_append_left _ hq, hfacts⟩
  · intro q hq
    rw [hstore]
    exact hs.unused q (hsub.subset hq)
  · intro q hq
    rw [hstore]
    exact hs.clear q (hsub.subset hq)
  · rw [hstore]
    exact hs.lined

variable [Collaborators κ] {tuning : Tuning} {k : κ}

theorem Move.submissions_of_accepted {q : Record} (h : Move tuning w (.accepted q) v) :
    v.submissions = q :: w.submissions := by
  cases h
  rfl

theorem Move.submissions_of_created {q : Record} (h : Move tuning w (.created q) v) :
    ∃ before after, w.submissions = before ++ q :: after ∧ v.submissions = before ++ after := by
  cases h with
  | create hr _ => exact ⟨_, _, hr, rfl⟩

theorem Move.submissions_sublist (h : Move tuning w deed v) (hd : ∀ r, deed ≠ .accepted r) :
    v.submissions.Sublist w.submissions := by
  cases h with
  | @accept raw id now r after h => exact absurd rfl (hd r)
  | create hr _ | reject hr _ | withdraw hr =>
    rw [hr]
    exact (List.Sublist.refl _).append (List.sublist_cons_self _ _)
  | _ => exact List.Sublist.refl _

/-- An accepted submission is alone, under a fresh name, and beside failed registrations. -/
theorem Successive.accept {q : Record} (hs : w.Successive deeds)
    (h : Move tuning w (.accepted q) v) (halone : w.submissions = [])
    (ho : Orderly (deeds ++ [.accepted q])) : v.Successive (deeds ++ [.accepted q]) := by
  obtain ⟨hstore, hlast⟩ := h.vet_of_accepted
  have hsub : v.submissions = [q] := by rw [h.submissions_of_accepted, halone]
  have hidle : ({ v with submissions := w.submissions } : World κ).Successive
      (deeds ++ [.accepted q]) := hs.idle hstore (List.Sublist.refl _)
  -- Nobody else is under way, and whoever was accepted met registrations that have failed only.
  refine ⟨?_, hidle.named, hidle.stamped, ?_, ?_, hidle.lined⟩
  · rw [hsub]
    exact Nat.le_refl 1
  · intro p hp r hr
    rw [hsub, List.mem_singleton] at hp
    rw [hstore] at hr
    obtain ⟨x, hx, hid⟩ := hs.named r hr
    rw [hp, ← hid]
    exact rel_of_pairwise_filterMap_snoc ho.named hx rfl rfl
  · intro p hp r hr hdid
    rw [hsub, List.mem_singleton] at hp
    rw [hstore] at hr
    subst hp
    exact (hs.lined p.did).isFailure_of_latest? hlast r hr hdid

/-- The record that is created comes last, behind failed registrations. -/
theorem Successive.create {q : Record} (hs : w.Successive deeds)
    (h : Move tuning w (.created q) v) (hq : .accepted q ∈ deeds)
    (ho : Orderly (deeds ++ [.created q])) : v.Successive (deeds ++ [.created q]) := by
  obtain ⟨hmem, hrecords⟩ := h.of_created
  obtain ⟨before, after, hsub, hrest⟩ := h.submissions_of_created
  -- Whoever creates a record was alone, and nobody is left.
  have hnobody : v.submissions = [] := by
    have hlength := hs.alone
    rw [hsub] at hlength
    simp only [List.length_append, List.length_cons] at hlength
    rw [hrest, List.append_eq_nil_iff, List.eq_nil_iff_length_eq_zero,
      List.eq_nil_iff_length_eq_zero]
    omega
  constructor
  · rw [hnobody]
    exact Nat.zero_le 1
  · intro r hr
    rw [hrecords] at hr
    rcases List.mem_cons.1 hr with rfl | hr
    · exact ⟨r, List.mem_append_left _ hq, rfl⟩
    · obtain ⟨x, hx, hid⟩ := hs.named r hr
      exact ⟨x, List.mem_append_left _ hx, hid⟩
  · intro r hr
    rw [hrecords] at hr
    rcases List.mem_cons.1 hr with rfl | hr
    · exact ⟨r, by simp, rfl, rfl⟩
    · obtain ⟨x, hx, hfacts⟩ := hs.stamped r hr
      exact ⟨x, List.mem_append_left _ hx, hfacts⟩
  · rw [hnobody]
    simp
  · rw [hnobody]
    simp
  · intro did
    refine (hs.lined did).cons hrecords ?_
    intro hdid r hr hrdid
    have hsame : r.did = q.did := hrdid.trans hdid.symm
    obtain ⟨x, hx, hxdid, hxat⟩ := hs.stamped r hr
    refine ⟨hs.clear q hmem r hr hsame, ?_⟩
    rw [← hxat]
    exact rel_of_pairwise_filterMap_snoc ho.stamped hx rfl rfl (hxdid.trans hsame)

theorem Successive.swap {a : Attempt} (hw : w.Coherent tuning) (hs : w.Successive deeds)
    (h : Move tuning w (.swapped a) v) : v.Successive (deeds ++ [.swapped a]) := by
  obtain ⟨hgen, hread, -⟩ := hw.of_swapped h
  have hlead := hgen.leadsTo
  have hsub := h.submissions_sublist (by simp)
  -- What is written keeps the name, the participant and the creation of what was read.
  have horigin : ∀ r ∈ v.registry.store.records, ∃ old ∈ w.registry.store.records,
      r.id = old.id ∧ r.did = old.did ∧ r.createdAt = old.createdAt := by
    intro r hr
    rcases h.mem_of_swapped hr with rfl | hr
    · exact ⟨a.read, hread, hlead.id, hlead.did, hlead.createdAt⟩
    · exact ⟨r, hr, rfl, rfl, rfl⟩
  constructor
  · exact Nat.le_trans hsub.length_le hs.alone
  · intro r hr
    obtain ⟨old, hold, hid, -, -⟩ := horigin r hr
    obtain ⟨q, hq, hqid⟩ := hs.named old hold
    exact ⟨q, List.mem_append_left _ hq, hqid.trans hid.symm⟩
  · intro r hr
    obtain ⟨old, hold, -, hdid, hat⟩ := horigin r hr
    obtain ⟨q, hq, hqdid, hqat⟩ := hs.stamped old hold
    exact ⟨q, List.mem_append_left _ hq, hqdid.trans hdid.symm, hqat.trans hat.symm⟩
  · intro q hq r hr
    obtain ⟨old, hold, hid, -, -⟩ := horigin r hr
    rw [hid]
    exact hs.unused q (hsub.subset hq) old hold
  · intro q hq r hr hdid
    have hfailed := hs.clear q (hsub.subset hq)
    exact hfailed r (hw.mem_of_swapped h hfailed hr hdid) hdid
  · intro did
    exact hw.lined_of_swapped h (hs.lined did)

end Onboarding.World
