import Onboarding.Cycle
import Onboarding.Proofs.Schedule
import Onboarding.Proofs.Solitude
import Onboarding.Proofs.Verdicts

namespace Onboarding

theorem Store.exists_mem_of_map_state_eq {s : Store} {state : State}
    (h : s.records.map Record.state = [state]) : ∃ r ∈ s.records, r.state = state := by
  have hmem : state ∈ s.records.map Record.state := by
    rw [h]
    exact List.mem_singleton_self state
  exact List.mem_map.1 hmem

namespace World

variable {κ : Type} [Collaborators κ] {tuning : Tuning} {u v w : World κ}

/-- A submission in one go is a run, of a participant alone. -/
theorem exists_run_submit (tuning : Tuning) (w : World κ) (raw : String) (id : ParticipantId)
    (now : Instant) : ∃ deeds v, Run tuning w deeds v ∧
      v.registry = (w.registry.submit raw id now).2 ∧ v.copies = w.copies ∧
      IsSubmission id now deeds ∧ ∀ hands : Hands, hands.Works deeds hands := by
  rw [Registry.submit_eq]
  cases h : w.registry.vet raw id now with
  | mk result after =>
    cases result with
    | error e =>
      exact ⟨_, _, .single (.refuse h), rfl, rfl, .refused e,
        fun hands => .single (.refused hands e)⟩
    | ok r =>
      obtain ⟨did, -, rfl, -⟩ := Registry.eq_new_of_vet_eq_ok h
      have haccept : Run tuning w [.accepted (.new id did now)] _ := .single (.accept h)
      have hwork (hands : Hands) : hands.Works [.accepted (.new id did now)] hands :=
        .single (.accepted hands _)
      cases hc : after.store.create (.new id did now) with
      | ok s => exact ⟨_, _, haccept.snoc (.create (List.nil_append _).symm hc), rfl, rfl,
          .created did, fun hands => (hwork hands).snoc (.created hands _)⟩
      | error e => exact ⟨_, _, haccept.snoc (.reject (List.nil_append _).symm hc), rfl, rfl,
          .rejected did e, fun hands => (hwork hands).snoc (.rejected hands _ e)⟩

/-- A whole step with a copy that was read at any time is a run. -/
theorem exists_run_advance (tuning : Tuning) {w : World κ} {r : Record} (now : Instant)
    (hr : r ∈ w.copies) : ∃ deeds v, Run tuning w deeds v ∧
      v.registry = (w.registry.advance tuning r now).2 ∧ v.copies = w.copies ∧
      (∀ deed ∈ deeds, deed.IsStepOn [r] now) ∧
      ∀ rest, Hands.Works ⟨none, r :: rest⟩ deeds ⟨none, rest⟩ := by
  rw [Registry.advance_eq]
  cases h : w.registry.prepare tuning r now with
  | mk result after =>
    cases result with
    | none =>
      exact ⟨_, _, .single (.skip hr h), rfl, rfl, by simp [Deed.IsStepOn],
        fun rest => .single (.skipped rest r)⟩
    | some a =>
      obtain ⟨rfl, rfl, -⟩ := Registry.isGenuine_of_prepare_eq h
      have hcall : Run tuning w [.called a] _ := .single (.call hr h)
      have hwork (rest : List Record) :
          Hands.Works ⟨none, a.read :: rest⟩ [.called a] ⟨some a, rest⟩ :=
        .single (.called rest a)
      cases hc : after.store.compareAndSwap a.next a.read.version with
      | ok pair => exact ⟨_, _, hcall.snoc (.swap (List.nil_append _).symm hc), rfl, rfl,
          by simp [Deed.IsStepOn], fun rest => (hwork rest).snoc (.swapped rest a)⟩
      | error e => exact ⟨_, _, hcall.snoc (.lose (List.nil_append _).symm hc), rfl, rfl,
          by simp [Deed.IsStepOn], fun rest => (hwork rest).snoc (.lost rest a e)⟩

theorem exists_run_noteStalled (tuning : Tuning) (w : World κ) (r : Record) (isStalled : Bool) :
    ∃ deeds v, Run tuning w deeds v ∧ v.registry = w.registry.noteStalled r isStalled ∧
      v.copies = w.copies ∧ (∀ batch since, ∀ deed ∈ deeds, deed.IsStepOn batch since) ∧
      ∀ hands : Hands, hands.Works deeds hands := by
  cases isStalled with
  | false => exact ⟨_, w, .nil, rfl, rfl, by simp, fun _ => .nil⟩
  | true =>
    let noted := w.registry.noteStalled r true
    exact ⟨_, _, .single (.drift noted.collaborators noted.events noted.waited), rfl, rfl,
      by simp [Deed.IsStepOn], fun hands => .single (.drifted hands)⟩

theorem exists_run_advanceAll (tuning : Tuning) (clock : Nat → Instant) (batch : List Record) :
    ∀ (w : World κ) (n : Nat) (report : CycleReport), (∀ r ∈ batch, r ∈ w.copies) →
      ∃ deeds v rest, Run tuning w deeds v ∧
        v.registry = (Registry.advanceAll tuning clock n report batch w.registry).2 ∧
        (∀ since, (∀ m, n ≤ m → since ≤ clock m) → ∀ deed ∈ deeds, deed.IsStepOn batch since) ∧
        Hands.Works ⟨none, batch⟩ deeds ⟨none, rest⟩ := by
  induction batch with
  | nil =>
    intro w n report _
    exact ⟨_, w, _, .nil, rfl, by simp, .nil⟩
  | cons r rest ih =>
    intro w n report hbatch
    have hr : r ∈ w.copies := hbatch r List.mem_cons_self
    -- The record is looked at for being stalled, and then takes its step.
    obtain ⟨noting, u, hnoting, hu, hcopies, hnotes, hwaits⟩ :=
      exists_run_noteStalled tuning w r (r.isStalled (clock n) tuning.stallThreshold)
    rw [← hcopies] at hr
    obtain ⟨stepping, v, hstepping, hv, hcopies', hstep, hsteps⟩ :=
      exists_run_advance tuning (clock n) hr
    have hrun := hnoting.trans hstepping
    have hwork := (hwaits ⟨none, r :: rest⟩).trans (hsteps rest)
    have hfirst (since : Instant) (hsince : ∀ m, n ≤ m → since ≤ clock m) :
        ∀ deed ∈ noting ++ stepping, deed.IsStepOn (r :: rest) since := by
      intro deed hdeed
      rcases List.mem_append.1 hdeed with hdeed | hdeed
      · exact hnotes _ _ deed hdeed
      · exact (hstep deed hdeed).mono (by simp) (hsince n (Nat.le_refl n))
    rw [Registry.advanceAll, ← hu]
    cases h : u.registry.advance tuning r (clock n) with
    | mk result after =>
      rw [h] at hv
      cases result with
      | error e => exact ⟨_, v, _, hrun, hv, hfirst, hwork⟩
      | ok outcome =>
        have hrest : ∀ q ∈ rest, q ∈ v.copies := by
          intro q hq
          rw [hcopies', hcopies]
          exact hbatch q (List.mem_cons_of_mem r hq)
        obtain ⟨deeds, x, left, hx, hreg, hlater, hworks⟩ := ih v (n + 1) _ hrest
        rw [hv] at hreg
        refine ⟨_, x, left, hrun.trans hx, hreg, ?_, hwork.trans hworks⟩
        intro since hsince deed hdeed
        rcases List.mem_append.1 hdeed with hdeed | hdeed
        · exact hfirst since hsince deed hdeed
        · have hstepOn := hlater since (fun m hm => hsince m (Nat.le_of_succ_le hm)) deed hdeed
          exact hstepOn.mono (fun q hq => List.mem_cons_of_mem r hq) le_rfl

theorem exists_run_cycle (tuning : Tuning) (w : World κ) (clock : Nat → Instant)
    (old : List Record) : ∃ deeds v rest, Run tuning w deeds v ∧
      v.registry = (w.registry.cycle tuning clock).2 ∧
      ((∀ n, clock 0 ≤ clock n) → InCycles deeds ∧ ∀ deed ∈ deeds, deed.isWork = true) ∧
      Hands.Works ⟨none, old⟩ deeds ⟨none, rest⟩ := by
  let batch := w.registry.store.lease tuning.batchSize (clock 0)
  let leased : World κ := { w with copies := batch ++ w.copies }
  have hlease : Run tuning w [.leased tuning.batchSize (clock 0) batch] leased :=
    .single (.lease tuning.batchSize (clock 0))
  have hwork : Hands.Works ⟨none, old⟩ [.leased tuning.batchSize (clock 0) batch] ⟨none, batch⟩ :=
    .single (.leased old tuning.batchSize (clock 0) batch)
  obtain ⟨deeds, v, rest, hrun, hv, hsteps, hworks⟩ := exists_run_advanceAll tuning clock batch
    leased 1 { leased := batch.length } (fun r hr => List.mem_append_left w.copies hr)
  refine ⟨_, v, rest, hlease.trans hrun, hv, ?_, hwork.trans hworks⟩
  intro hclock
  have hdone := hsteps (clock 0) (fun n _ => hclock n)
  refine ⟨.of_lease tuning.batchSize hdone, ?_⟩
  intro deed hdeed
  rcases List.mem_cons.1 hdeed with rfl | hdeed
  · rfl
  · exact (hdone deed hdeed).isWork

/-- Cycles up to one that leases nothing are a run of a single worker. -/
theorem exists_run_drain (tuning : Tuning) (clock : Nat → Instant) (max : Nat) :
    ∀ (k : Nat) (w : World κ) (old : List Record), ∃ deeds v rest, Run tuning w deeds v ∧
      v.registry = (Registry.drain tuning clock max k w.registry).2 ∧
      InCycles deeds ∧ (∀ deed ∈ deeds, deed.isWork = true) ∧
      Hands.Works ⟨none, old⟩ deeds ⟨none, rest⟩ := by
  induction max with
  | zero =>
    intro k w old
    exact ⟨_, w, old, .nil, rfl, .nil, by simp, .nil⟩
  | succ max ih =>
    intro k w old
    obtain ⟨deeds, v, rest, hrun, hv, hdone, hwork⟩ :=
      exists_run_cycle tuning w (fun _ => clock k) old
    obtain ⟨hcycle, hdeeds⟩ := hdone (fun _ => le_rfl)
    rw [Registry.drain]
    cases h : w.registry.cycle tuning (fun _ => clock k) with
    | mk result after =>
      rw [h] at hv
      cases result with
      | error e => exact ⟨_, v, rest, hrun, hv, hcycle, hdeeds, hwork⟩
      | ok report =>
        -- The cycle that leases nothing is the last one.
        by_cases hzero : report.leased = 0
        · simp only [if_pos hzero]
          exact ⟨_, v, rest, hrun, hv, hcycle, hdeeds, hwork⟩
        · obtain ⟨later, x, left, hlater, hx, hcycles, hothers, hworks⟩ := ih (k + 1) v rest
          rw [hv] at hx
          refine ⟨_, x, left, hrun.trans hlater, ?_, hcycle.append hcycles, ?_,
            hwork.trans hworks⟩
          · simp only [if_neg hzero, hx]
            cases hd : Registry.drain tuning clock max (k + 1) after with
            | mk reports last => cases reports <;> rfl
          · intro deed hdeed
            exact (List.mem_append.1 hdeed).elim (hdeeds deed) (hothers deed)

/-- One registration, handed in and worked on by one worker until there is nothing left to do. -/
theorem exists_works_drain_submit (tuning : Tuning) (k : κ) (raw : String) (id : ParticipantId)
    (clock : Nat → Instant) (max : Nat) : ∃ deeds w hands, Run tuning (initial k) deeds w ∧
      w.registry = (Registry.drain tuning clock max 0
        ((initial k).registry.submit raw id (clock 0)).2).2 ∧
      InCycles deeds ∧ Hands.Works {} deeds hands := by
  obtain ⟨deeds, v, hrun, hv, -, hsubmit, hwork⟩ :=
    exists_run_submit tuning (initial k) raw id (clock 0)
  obtain ⟨later, w, rest, hlater, hw, hcycles, -, hworks⟩ :=
    exists_run_drain tuning clock max 0 v []
  rw [hv] at hw
  exact ⟨_, w, ⟨none, rest⟩, hrun.trans hlater, hw,
    (InCycles.of_isSubmission hsubmit).append hcycles, (hwork {}).trans hworks⟩

theorem exists_run_drain_submit (tuning : Tuning) (k : κ) (raw : String) (id : ParticipantId)
    (clock : Nat → Instant) (max : Nat) : ∃ deeds w, Run tuning (initial k) deeds w ∧
      w.registry = (Registry.drain tuning clock max 0
        ((initial k).registry.submit raw id (clock 0)).2).2 := by
  obtain ⟨deeds, w, _, hrun, hw, -, -⟩ := exists_works_drain_submit tuning k raw id clock max
  exact ⟨deeds, w, hrun, hw⟩

theorem exists_run_onboarded : ∃ deeds w, Run {} (initial (⟨.zero⟩ : Bureau .welcome)) deeds w ∧
    ∃ r ∈ w.registry.store.records, r.state = .onboarded := by
  obtain ⟨deeds, w, hrun, hw⟩ := exists_run_drain_submit {} (⟨.zero⟩ : Bureau .welcome)
    "did:web:participant" ⟨"1"⟩ (fun _ => .epoch) 5
  refine ⟨deeds, w, hrun, Store.exists_mem_of_map_state_eq ?_⟩
  rw [hw]
  decide +kernel

end World

end Onboarding
