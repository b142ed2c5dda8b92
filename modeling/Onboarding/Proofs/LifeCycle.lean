import Onboarding.Proofs.Coherence
import Onboarding.Proofs.Runs

namespace Onboarding.World

variable {κ : Type} [Collaborators κ] {tuning : Tuning} {w v : World κ} {deed : Deed}
  {deeds : List Deed} {r : Record}

/-- With one move, a stored record stays or gives way to one that may take its place. -/
theorem Coherent.find?_move (hw : w.Coherent tuning) (h : Move tuning w deed v)
    (hr : r ∈ w.registry.store.records) : ∃ s, v.registry.store.find? r.id = some s ∧
      (s = r ∨ r.LeadsTo s) := by
  have hf := Store.find?_eq_some_iff.2 ⟨hr, rfl⟩
  rcases hw.store_cases h with ⟨hs, -⟩ | ⟨id, did, now, -, hn, hs⟩ | ⟨a, ha, -, hread, hs⟩
  · exact ⟨r, by rw [hs, hf], Or.inl rfl⟩
  · have hne : r.id ≠ id := by
      intro hid
      rw [hid, hn] at hf
      cases hf
    exact ⟨r, by rw [hs, if_neg hne, hf], Or.inl rfl⟩
  · by_cases hid : r.id = a.read.id
    · -- What is replaced is the record itself, and not just one of its name.
      have heq : a.read = r := by
        rw [hid, hread] at hf
        exact Option.some.inj hf
      refine ⟨a.written, by rw [hs, if_pos hid], Or.inr ?_⟩
      rw [← heq]
      exact (hw.genuine a ha).leadsTo
    · exact ⟨r, by rw [hs, if_neg hid, hf], Or.inl rfl⟩

/-- In a run, the records under a name lead from one to the next. -/
theorem Coherent.find?_run (hw : w.Coherent tuning) (h : Run tuning w deeds v)
    (hr : r ∈ w.registry.store.records) : ∃ s, v.registry.store.find? r.id = some s ∧
      Relation.ReflTransGen Record.LeadsTo r s := by
  induction h with
  | nil => exact ⟨r, Store.find?_eq_some_iff.2 ⟨hr, rfl⟩, .refl⟩
  | @snoc deeds deed u v h hm ih =>
    obtain ⟨q, hq, hrq⟩ := ih
    obtain ⟨hmem, hid⟩ := Store.find?_eq_some_iff.1 hq
    obtain ⟨s, hs, hqs⟩ := (hw.run h).find?_move hm hmem
    rw [hid] at hs
    rcases hqs with rfl | hqs
    · exact ⟨s, hs, hrq⟩
    · exact ⟨s, hs, hrq.tail hqs⟩

/-- The life cycle of records. Whatever is done in a world that a run leads to, each stored record
stays or gives way to the next that may take its place; in all that comes later it is found again,
moved on in such steps only; and once it has ended it is found again as it is. -/
theorem Run.records_keep_lifeCycle {k : κ} (h : Run tuning (initial k) deeds w) :
    (∀ deed v, Move tuning w deed v → ∀ r ∈ w.registry.store.records,
      ∃ s, v.registry.store.find? r.id = some s ∧ (s = r ∨ r.LeadsTo s)) ∧
    (∀ later v, Run tuning w later v → ∀ r ∈ w.registry.store.records,
      ∃ s, v.registry.store.find? r.id = some s ∧ Relation.ReflTransGen Record.LeadsTo r s) ∧
    (∀ later v, Run tuning w later v → ∀ r ∈ w.registry.store.records,
      r.state.isTerminal = true → v.registry.store.find? r.id = some r) := by
  refine ⟨?_, ?_, ?_⟩
  · intro deed v hm r hr
    exact h.coherent.find?_move hm hr
  · intro later v hl r hr
    exact h.coherent.find?_run hl hr
  · intro later v hl r hr ht
    obtain ⟨s, hs, hrs⟩ := h.coherent.find?_run hl hr
    rw [Record.eq_of_reflTransGen_leadsTo hrs ht] at hs
    exact hs

theorem onboarded_record_stays : ∃ deeds w r,
    Run {} (initial (⟨.zero⟩ : Bureau .welcome)) deeds w ∧ r ∈ w.registry.store.records ∧
      r.state = .onboarded ∧
      ∀ later v, Run {} w later v → v.registry.store.find? r.id = some r := by
  obtain ⟨deeds, w, hrun, r, hr, hs⟩ := exists_run_onboarded
  refine ⟨deeds, w, r, hrun, hr, hs, ?_⟩
  intro later v hl
  exact hrun.records_keep_lifeCycle.2.2 later v hl r hr (by rw [hs]; rfl)

end Onboarding.World
