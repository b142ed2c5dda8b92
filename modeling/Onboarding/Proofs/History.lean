import Onboarding.Proofs.Coherence

namespace Onboarding

/-- The attempts that made a record what it is, from the first to the last. -/
inductive History (κ : Type) [Collaborators κ] (tuning : Tuning) : List Attempt → Record → Prop
  | new (id : ParticipantId) (did : Did) (now : Instant) : History κ tuning [] (.new id did now)
  | step {past : List Attempt} {a : Attempt} (h : History κ tuning past a.read)
      (ha : a.IsGenuine κ tuning) : History κ tuning (past ++ [a]) a.written

def deedsOf (past : List Attempt) : List Deed :=
  past.flatMap fun a => [.called a, .swapped a]

theorem deedsOf_append (past later : List Attempt) :
    deedsOf (past ++ later) = deedsOf past ++ deedsOf later := List.flatMap_append

namespace History

variable {κ : Type} [Collaborators κ] {tuning : Tuning} {past : List Attempt} {r : Record}

theorem read_eq (h : History κ tuning past r) :
    ∀ a ∈ past, a.read.id = r.id ∧ a.read.did = r.did := by
  induction h with
  | new id did now =>
    intro a ha
    cases ha
  | @step past b _ hb ih =>
    have hlead := hb.leadsTo
    intro a ha
    rw [hlead.id, hlead.did]
    rcases List.mem_append.1 ha with ha | ha
    · exact ih a ha
    · rw [List.mem_singleton.1 ha]
      exact ⟨rfl, rfl⟩

/-- Each attempt in a history was made with the version that the one before it had written. -/
theorem map_version (h : History κ tuning past r) :
    past.map (fun a => a.read.version) = List.range r.version := by
  induction h with
  | new => rfl
  | @step past b _ hb ih =>
    rw [List.map_append, ih, hb.leadsTo.version, List.range_succ]
    rfl

end History

namespace World

variable {κ : Type} [Collaborators κ] {tuning : Tuning} {k : κ} {w v : World κ}
  {deeds : List Deed}

structure Documented (tuning : Tuning) (w : World κ) (deeds : List Deed) : Prop where
  -- An attempt under way was called after all that is in the history of its record.
  stored : ∀ r ∈ w.registry.store.records, ∃ past, History κ tuning past r ∧
    (deedsOf past).Sublist deeds
  copies : ∀ r ∈ w.copies, ∃ past, History κ tuning past r ∧ (deedsOf past).Sublist deeds
  attempts : ∀ a ∈ w.attempts, ∃ past, History κ tuning past a.read ∧
    (deedsOf past ++ [Deed.called a]).Sublist deeds

theorem documented_initial (tuning : Tuning) (k : κ) : (initial k).Documented tuning [] := by
  constructor
  · intro r hr
    cases hr
  · intro r hr
    cases hr
  · intro a ha
    cases ha

theorem Documented.move {deed : Deed} (hd : w.Documented tuning deeds) (hw : w.Coherent tuning)
    (h : Move tuning w deed v) : v.Documented tuning (deeds ++ [deed]) := by
  have hgrow : deeds.Sublist (deeds ++ [deed]) := List.sublist_append_left deeds [deed]
  constructor
  · intro r hr
    rcases hw.mem_cases h hr with hr | ⟨id, did, now, rfl⟩ | ⟨a, ha, rfl, rfl⟩
    · obtain ⟨past, hpast, hsub⟩ := hd.stored r hr
      exact ⟨past, hpast, hsub.trans hgrow⟩
    · exact ⟨[], .new id did now, List.nil_sublist _⟩
    · obtain ⟨past, hpast, hsub⟩ := hd.attempts a ha
      -- The write completes what the attempt, called after all that came before it, has begun.
      refine ⟨past ++ [a], hpast.step (hw.genuine a ha), ?_⟩
      have hlast : deedsOf (past ++ [a]) = (deedsOf past ++ [.called a]) ++ [.swapped a] := by
        rw [deedsOf_append, List.append_assoc]
        rfl
      rw [hlast]
      exact hsub.append (List.Sublist.refl _)
  · intro r hr
    -- A copy has the history of the record that was read, which is one of those before the move.
    have hold : ∃ past, History κ tuning past r ∧ (deedsOf past).Sublist deeds := by
      rcases h.copies_cases hr with hr | hr
      · exact hd.copies r hr
      · exact hd.stored r hr
    obtain ⟨past, hpast, hsub⟩ := hold
    exact ⟨past, hpast, hsub.trans hgrow⟩
  · intro a ha
    rcases h.attempts_cases ha with ha | ⟨rfl, hread, -⟩
    · obtain ⟨past, hpast, hsub⟩ := hd.attempts a ha
      exact ⟨past, hpast, hsub.trans hgrow⟩
    · obtain ⟨past, hpast, hsub⟩ := hd.copies a.read hread
      exact ⟨past, hpast, hsub.append (List.Sublist.refl _)⟩

/-- In every run, each record in sight has a history among the deeds. -/
theorem Run.documented (h : Run tuning (initial k) deeds w) : w.Documented tuning deeds := by
  induction h with
  | nil => exact documented_initial tuning k
  | snoc h hm ih => exact ih.move h.coherent hm

/-- What was called in a run was called with a copy that the run had read before. -/
theorem Run.exists_history_of_called (h : Run tuning (initial k) deeds w) {a : Attempt}
    (ha : .called a ∈ deeds) : a.IsGenuine κ tuning ∧ ∃ past, History κ tuning past a.read := by
  obtain ⟨before, after, hd⟩ := List.append_of_mem ha
  obtain ⟨u, x, hu, hm, -⟩ := h.split hd
  cases hm with
  | call hr hprepare =>
    obtain ⟨rfl, -, hgen, -⟩ := Registry.isGenuine_of_prepare_eq hprepare
    obtain ⟨past, hpast, -⟩ := hu.documented.copies _ hr
    exact ⟨hgen, past, hpast⟩

end World

end Onboarding
