import Onboarding.Proofs.Succession
import Onboarding.Proofs.World

namespace Onboarding

def Store.Covers (s : Store) (r : Record) : Prop :=
  ∃ stored, s.find? r.id = some stored ∧ (r = stored ∨ r.version < stored.version)

namespace Store

variable {s t : Store} {r next stored : Record} {expected : Nat}

theorem covers_of_mem (h : r ∈ s.records) : s.Covers r :=
  ⟨r, find?_eq_some_iff.2 ⟨h, rfl⟩, Or.inl rfl⟩

theorem Covers.create {new : Record} (hr : s.Covers r) (h : s.create new = .ok t) :
    t.Covers r := by
  obtain ⟨old, hold, hle⟩ := hr
  have hne : r.id ≠ new.id := by
    intro hid
    rw [hid, (create_eq_ok_iff.1 h).1] at hold
    cases hold
  refine ⟨old, ?_, hle⟩
  rw [find?_of_create_eq_ok h, if_neg hne, hold]

theorem find?_of_compareAndSwap_eq_ok (h : s.compareAndSwap next expected = .ok (stored, t))
    (id : ParticipantId) : t.find? id = if id = next.id then some stored else s.find? id := by
  obtain ⟨⟨old, hold, -⟩, rfl, ht⟩ := compareAndSwap_eq_ok_iff.1 h
  rw [ht, find?_replace]
  by_cases hid : id = next.id
  · rw [if_pos hid, if_pos hid, hid, hold]
    rfl
  · rw [if_neg hid, if_neg hid]

/-- A copy of a record stays a copy, of the same version or an older one, when a write succeeds. -/
theorem Covers.compareAndSwap (hr : s.Covers r)
    (h : s.compareAndSwap next expected = .ok (stored, t)) : t.Covers r := by
  obtain ⟨old, hold, hle⟩ := hr
  obtain ⟨⟨replaced, hreplaced, hv⟩, hstored, -⟩ := compareAndSwap_eq_ok_iff.1 h
  by_cases hid : r.id = next.id
  · -- The replacement has a higher version than all copies of what it replaces.
    refine ⟨stored, ?_, Or.inr ?_⟩
    · rw [find?_of_compareAndSwap_eq_ok h, if_pos hid]
    · rw [hid, hreplaced] at hold
      cases hold
      have hlt : stored.version = expected + 1 := by rw [hstored]
      rcases hle with rfl | hle <;> omega
  · refine ⟨old, ?_, hle⟩
    rw [find?_of_compareAndSwap_eq_ok h, if_neg hid, hold]

/-- Two records of one name and version are the same. -/
theorem Covers.eq_of_version_eq (hr : s.Covers r) (h : s.find? r.id = some stored)
    (hv : stored.version = r.version) : r = stored := by
  obtain ⟨old, hold, hle⟩ := hr
  rw [h] at hold
  cases hold
  exact hle.resolve_right (by omega)

end Store

namespace World

variable {κ : Type} [Collaborators κ] {tuning : Tuning} {w v : World κ} {deed : Deed}

/-- Nothing that is under way is ahead of the store, and all of it was made from the store. -/
structure Coherent (tuning : Tuning) (w : World κ) : Prop where
  copies : ∀ r ∈ w.copies, w.registry.store.Covers r
  attempts : ∀ a ∈ w.attempts, w.registry.store.Covers a.read
  genuine : ∀ a ∈ w.attempts, a.IsGenuine κ tuning
  submissions : ∀ r ∈ w.submissions, ∃ id did now, r = .new id did now

theorem coherent_initial (tuning : Tuning) (k : κ) : (initial k).Coherent tuning := by
  constructor
  · intro r hr
    cases hr
  · intro a ha
    cases ha
  · intro a ha
    cases ha
  · intro r hr
    cases hr

theorem Move.covers (h : Move tuning w deed v) {r : Record} (hr : w.registry.store.Covers r) :
    v.registry.store.Covers r := by
  rcases h.store_cases with ⟨hs, -⟩ | ⟨new, -, -, hcreate⟩ | ⟨a, -, -, stored, hswap⟩
  · rw [hs]
    exact hr
  · exact hr.create hcreate
  · exact hr.compareAndSwap hswap

/-- No move brings a copy or an attempt that is ahead of the store. -/
theorem Coherent.move (hw : w.Coherent tuning) (h : Move tuning w deed v) : v.Coherent tuning := by
  constructor
  · intro r hr
    apply h.covers
    rcases h.copies_cases hr with hr | hr
    · exact hw.copies r hr
    · exact Store.covers_of_mem hr
  · intro a ha
    apply h.covers
    rcases h.attempts_cases ha with ha | ⟨-, hread, -⟩
    · exact hw.attempts a ha
    · exact hw.copies a.read hread
  · intro a ha
    rcases h.attempts_cases ha with ha | ⟨-, -, hgen⟩
    · exact hw.genuine a ha
    · exact hgen
  · intro r hr
    rcases h.submissions_cases hr with hr | ⟨-, hnew⟩
    · exact hw.submissions r hr
    · exact hnew

theorem Coherent.run {deeds : List Deed} (hw : w.Coherent tuning) (h : Run tuning w deeds v) :
    v.Coherent tuning := by
  induction h with
  | nil => exact hw
  | snoc _ hm ih => exact ih.move hm

/-- In every run from an empty registry, nothing under way is ahead of the store. -/
theorem Run.coherent {k : κ} {deeds : List Deed} (h : Run tuning (initial k) deeds w) :
    w.Coherent tuning :=
  (coherent_initial tuning k).run h

/-- Between worlds that are in order, a move leaves the store as it is, or creates a new record
under a new name, or puts what a genuine attempt has made in place of the record it was made
from. -/
theorem Coherent.store_cases (hw : w.Coherent tuning) (h : Move tuning w deed v) :
    (v.registry.store = w.registry.store ∧ (∀ r, deed ≠ .created r) ∧ ∀ a, deed ≠ .swapped a) ∨
    (∃ id did now, deed = .created (.new id did now) ∧ w.registry.store.find? id = none ∧
      ∀ name, v.registry.store.find? name =
        if name = id then some (.new id did now) else w.registry.store.find? name) ∨
    (∃ a ∈ w.attempts, deed = .swapped a ∧ w.registry.store.find? a.read.id = some a.read ∧
      ∀ name, v.registry.store.find? name =
        if name = a.read.id then some a.written else w.registry.store.find? name) := by
  rcases h.store_cases with hs | ⟨r, hr, hdeed, hcreate⟩ | ⟨a, ha, hdeed, stored, hswap⟩
  · exact Or.inl hs
  · obtain ⟨id, did, now, rfl⟩ := hw.submissions r hr
    refine Or.inr (Or.inl ⟨id, did, now, hdeed, (Store.create_eq_ok_iff.1 hcreate).1, ?_⟩)
    exact Store.find?_of_create_eq_ok hcreate
  · have hid := (hw.genuine a ha).next_id
    have hfind := Store.find?_of_compareAndSwap_eq_ok hswap
    obtain ⟨⟨old, hold, hv⟩, hstored, -⟩ := Store.compareAndSwap_eq_ok_iff.1 hswap
    have hwritten : stored = a.written := hstored
    rw [hid] at hold
    rw [hid, hwritten] at hfind
    -- The swap expected the version that was read, so what it found is what was read.
    have heq : a.read = old := (hw.attempts a ha).eq_of_version_eq hold hv
    refine Or.inr (Or.inr ⟨a, ha, hdeed, ?_, hfind⟩)
    rw [hold, ← heq]

/-- A record that is stored after a move was there before, is new, or was written by an attempt
under way. -/
theorem Coherent.mem_cases (hw : w.Coherent tuning) (h : Move tuning w deed v)
    {r : Record} (hr : r ∈ v.registry.store.records) :
    r ∈ w.registry.store.records ∨ (∃ id did now, r = .new id did now) ∨
      ∃ a ∈ w.attempts, deed = .swapped a ∧ r = a.written := by
  have hf := Store.find?_eq_some_iff.2 ⟨hr, rfl⟩
  rcases hw.store_cases h with ⟨hs, -⟩ | ⟨id, did, now, -, -, hs⟩ | ⟨a, ha, hdeed, -, hs⟩
  · rw [hs] at hr
    exact Or.inl hr
  · rw [hs] at hf
    by_cases hid : r.id = id
    · rw [if_pos hid] at hf
      exact Or.inr (Or.inl ⟨id, did, now, (Option.some.inj hf).symm⟩)
    · rw [if_neg hid] at hf
      exact Or.inl (Store.find?_eq_some_iff.1 hf).1
  · rw [hs] at hf
    by_cases hid : r.id = a.read.id
    · rw [if_pos hid] at hf
      exact Or.inr (Or.inr ⟨a, ha, hdeed, (Option.some.inj hf).symm⟩)
    · rw [if_neg hid] at hf
      exact Or.inl (Store.find?_eq_some_iff.1 hf).1

end World

end Onboarding
