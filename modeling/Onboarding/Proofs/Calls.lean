import Onboarding.Proofs.Allowance
import Onboarding.Proofs.Solitude

/-!
How often the services are asked about a record. A worker that is alone writes all that it finds
out, so that the attempts it made are those that were written, but for the one in its hands.
-/

namespace Onboarding

def Deed.called? : Deed → Option Attempt
  | .called a => some a
  | _ => none

def attemptsOn (id : ParticipantId) (deeds : List Deed) : List Attempt :=
  (deeds.filterMap Deed.called?).filter (·.read.id = id)

def callsOn (id : ParticipantId) (deeds : List Deed) : List Call :=
  (attemptsOn id deeds).filterMap Attempt.call

section

variable {id : ParticipantId} {deeds : List Deed} {deed : Deed} {a : Attempt}

theorem attemptsOn_snoc_of_not_called (h : ∀ a, deed ≠ .called a) :
    attemptsOn id (deeds ++ [deed]) = attemptsOn id deeds := by
  cases deed with
  | called a => exact absurd rfl (h a)
  | _ => simp [attemptsOn, Deed.called?]

theorem attemptsOn_snoc_called :
    attemptsOn id (deeds ++ [.called a]) =
      attemptsOn id deeds ++ [a].filter (·.read.id = id) := by
  simp [attemptsOn, Deed.called?]

/-- A step is asked about no more often than it is taken. -/
theorem countP_callsOn_le {κ : Type} [Collaborators κ] {tuning : Tuning} {step : Step}
    (h : ∀ a ∈ attemptsOn id deeds, a.IsGenuine κ tuning) :
    (callsOn id deeds).countP (·.step = step) ≤
      (attemptsOn id deeds).countP (·.route.step = step) := by
  rw [callsOn, List.countP_filterMap]
  refine List.countP_mono_left ?_
  intro a ha hcall
  cases hc : a.call with
  | none => simp [hc] at hcall
  | some call =>
    rw [decide_eq_true_eq, (h a ha).step_eq hc]
    simpa [hc] using hcall

end

namespace World

variable {κ : Type} [Collaborators κ] {tuning : Tuning} {k : κ} {w v : World κ}
  {deeds : List Deed} {deed : Deed} {hands hands' : Hands}

theorem Coherent.find?_of_not_swapped (hw : w.Coherent tuning) (h : Move tuning w deed v)
    (hd : ∀ a, deed ≠ .swapped a) {id : ParticipantId} {r : Record}
    (hr : w.registry.store.find? id = some r) : v.registry.store.find? id = some r := by
  rcases hw.store_cases h with ⟨hs, -⟩ | ⟨name, did, now, -, hn, hs⟩ | ⟨a, -, hswap, -⟩
  · rw [hs]
    exact hr
  · rw [hs, if_neg, hr]
    rintro rfl
    rw [hn] at hr
    cases hr
  · exact absurd hswap (hd a)

structure Serves (tuning : Tuning) (w : World κ) (hands : Hands) (deeds : List Deed) : Prop where
  -- What a single worker has in hand is as it is stored, and all that it has begun before has been
  -- written.
  fresh : ∀ r ∈ hands.batch, w.registry.store.find? r.id = some r
  distinct : (hands.batch.map Record.id).Nodup
  pending : ∀ a ∈ hands.attempt, a.IsGenuine κ tuning ∧
    w.registry.store.find? a.read.id = some a.read ∧ a.read.id ∉ hands.batch.map Record.id
  begun : ∀ id, attemptsOn id deeds =
    swapsOn id deeds ++ hands.attempt.toList.filter (·.read.id = id)

theorem serves_initial (tuning : Tuning) (k : κ) : (initial k).Serves tuning {} [] := by
  constructor
  · simp
  · exact List.nodup_nil
  · simp
  · simp [attemptsOn, swapsOn]

theorem Serves.idle (hs : w.Serves tuning hands deeds) (hw : w.Coherent tuning)
    (h : Move tuning w deed v) (hswap : ∀ a, deed ≠ .swapped a) (hcall : ∀ a, deed ≠ .called a) :
    v.Serves tuning hands (deeds ++ [deed]) := by
  constructor
  · intro r hr
    exact hw.find?_of_not_swapped h hswap (hs.fresh r hr)
  · exact hs.distinct
  · intro a ha
    obtain ⟨hgen, hread, hnot⟩ := hs.pending a ha
    exact ⟨hgen, hw.find?_of_not_swapped h hswap hread, hnot⟩
  · intro id
    rw [attemptsOn_snoc_of_not_called hcall, swapsOn_snoc_of_not_swapped hswap]
    exact hs.begun id

theorem Serves.take {rest batch : List Record} (hs : w.Serves tuning ⟨none, rest⟩ deeds)
    (hbatch : ∀ r ∈ batch, r ∈ v.registry.store.records)
    (hdistinct : (batch.map Record.id).Nodup) (hswap : ∀ a, deed ≠ .swapped a)
    (hcall : ∀ a, deed ≠ .called a) : v.Serves tuning ⟨none, batch⟩ (deeds ++ [deed]) := by
  constructor
  · intro r hr
    exact Store.find?_eq_some_iff.2 ⟨hbatch r hr, rfl⟩
  · exact hdistinct
  · simp
  · intro id
    rw [attemptsOn_snoc_of_not_called hcall, swapsOn_snoc_of_not_swapped hswap]
    exact hs.begun id

theorem Serves.call {rest : List Record} {a : Attempt}
    (hs : w.Serves tuning ⟨none, a.read :: rest⟩ deeds) (hw : w.Coherent tuning)
    (h : Move tuning w (.called a) v) : v.Serves tuning ⟨some a, rest⟩ (deeds ++ [.called a]) := by
  -- A question does not touch the store, so that what was fresh still is.
  have hkeep := fun {id r} => @Coherent.find?_of_not_swapped κ _ tuning w v _ hw h (by simp) id r
  have hgen : a.IsGenuine κ tuning := by
    cases h with
    | call _ hprepare => exact (Registry.isGenuine_of_prepare_eq hprepare).2.2.1
  have hdistinct := hs.distinct
  rw [List.map_cons, List.nodup_cons] at hdistinct
  constructor
  · intro r hr
    exact hkeep (hs.fresh r (List.mem_cons_of_mem _ hr))
  · exact hdistinct.2
  · rintro b hb
    cases hb
    exact ⟨hgen, hkeep (hs.fresh a.read List.mem_cons_self), hdistinct.1⟩
  · intro id
    rw [attemptsOn_snoc_called, swapsOn_snoc_of_not_swapped (by simp), hs.begun id]
    simp

theorem Serves.skip {rest : List Record} {r : Record}
    (hs : w.Serves tuning ⟨none, r :: rest⟩ deeds) (hw : w.Coherent tuning)
    (h : Move tuning w (.skipped r) v) : v.Serves tuning ⟨none, rest⟩ (deeds ++ [.skipped r]) := by
  have hidle := hs.idle hw h (by simp) (by simp)
  have hdistinct := hidle.distinct
  rw [List.map_cons, List.nodup_cons] at hdistinct
  exact ⟨fun q hq => hidle.fresh q (List.mem_cons_of_mem _ hq), hdistinct.2, by simp, hidle.begun⟩

/-- With its write, an attempt leaves the hands of the worker, and all that was begun has been
written again. -/
theorem Serves.swap {rest : List Record} {a : Attempt}
    (hs : w.Serves tuning ⟨some a, rest⟩ deeds) (hw : w.Coherent tuning)
    (h : Move tuning w (.swapped a) v) : v.Serves tuning ⟨none, rest⟩ (deeds ++ [.swapped a]) := by
  obtain ⟨hgen, hread, hnot⟩ := hs.pending a rfl
  obtain ⟨-, -, hothers⟩ := hw.find?_of_swapped h
  constructor
  · -- The rest of the batch has other names.
    intro r hr
    have hne : r.id ≠ a.next.id := by
      rw [hgen.next_id]
      intro hid
      exact hnot (List.mem_map.2 ⟨r, hr, hid⟩)
    rw [hothers r.id hne]
    exact hs.fresh r hr
  · exact hs.distinct
  · simp
  · intro id
    rw [attemptsOn_snoc_of_not_called (by simp), hs.begun id]
    by_cases hid : a.read.id = id
    · rw [swapsOn_snoc_swapped (by rw [hgen.next_id, hid])]
      simp [hid]
    · rw [swapsOn_snoc_swapped_of_ne (by rw [hgen.next_id]; exact hid)]
      simp [hid]

/-- Nobody is faster than a worker that is alone. -/
theorem Serves.not_lost {rest : List Record} {a : Attempt} {error : StoreError}
    (hs : w.Serves tuning ⟨some a, rest⟩ deeds) (h : Move tuning w (.lost a error) v) : False := by
  obtain ⟨hgen, hread, -⟩ := hs.pending a rfl
  cases h with
  | lose _ hc =>
    rw [← hgen.next_id] at hread
    rw [Store.compareAndSwap_eq_ok_iff.2 ⟨⟨a.read, hread, rfl⟩, rfl, rfl⟩] at hc
    cases hc

/-- What is known of a single worker is kept by all that it does, and by all that participants do.
-/
theorem Serves.move (hs : w.Serves tuning hands deeds) (hw : w.Coherent tuning)
    (h : Move tuning w deed v) (hd : hands.Does deed hands') :
    v.Serves tuning hands' (deeds ++ [deed]) := by
  cases hd with
  | leased rest limit now batch =>
    cases h with
    | lease =>
      refine hs.take ?_ (w.registry.store.nodup_lease limit now) (by simp) (by simp)
      intro r hr
      exact (Store.mem_of_mem_lease hr).1
  | fetched rest r =>
    cases h with
    | @fetch id _ hget =>
      refine hs.take ?_ (by simp) (by simp) (by simp)
      intro q hq
      rw [List.mem_singleton.1 hq]
      exact (Store.find?_eq_some_iff.1 (Store.get_eq_ok_iff.1 hget)).1
  | called => exact hs.call hw h
  | skipped => exact hs.skip hw h
  | swapped => exact hs.swap hw h
  -- A worker that is alone loses no write.
  | lost => exact (hs.not_lost h).elim
  | drifted | accepted | refused | created | rejected | withdrawn =>
    exact hs.idle hw h (by simp) (by simp)

theorem Run.serves (h : Run tuning (initial k) deeds w) (hwork : Hands.Works {} deeds hands) :
    w.Serves tuning hands deeds := by
  induction h generalizing hands with
  | nil =>
    rw [hwork.eq_of_nil]
    exact serves_initial tuning k
  | snoc h hm ih =>
    obtain ⟨before, hbefore, hd⟩ := hwork.of_snoc
    exact (ih hbefore).move h.coherent hm hd

/-- However many workers there are, a step of a record is written no more often than its budget
grants. -/
theorem Run.countP_swapsOn_le (hb : tuning.budgets.Admissible)
    (h : Run tuning (initial k) deeds w) (id : ParticipantId) (step : Step) :
    (swapsOn id deeds).countP (·.route.step = step) ≤ tuning.budgets.maxAttempts step := by
  cases hf : w.registry.store.find? id with
  | none =>
    rw [(h.accounts id).absent hf, List.countP_nil]
    exact Nat.zero_le _
  | some r =>
    exact Nat.le_of_add_right_le (((h.accounts id).history r hf).countP_add_left_le hb step)

theorem Run.isGenuine_of_mem_swapsOn (h : Run tuning (initial k) deeds w) {id : ParticipantId} :
    ∀ a ∈ swapsOn id deeds, a.IsGenuine κ tuning := by
  cases hf : w.registry.store.find? id with
  | none =>
    rw [(h.accounts id).absent hf]
    simp
  | some r => exact ((h.accounts id).history r hf).isGenuine

/-- With one worker, the attempts that were made are those that a record has gone through, or will
have once the last of them is written. -/
theorem Run.countP_attemptsOn_le (hb : tuning.budgets.Admissible)
    (h : Run tuning (initial k) deeds w) (hwork : Hands.Works {} deeds hands) (id : ParticipantId)
    (step : Step) :
    (∀ a ∈ attemptsOn id deeds, a.IsGenuine κ tuning) ∧
      (attemptsOn id deeds).countP (·.route.step = step) ≤ tuning.budgets.maxAttempts step := by
  have hserves := h.serves hwork
  have hnone (hbegun : attemptsOn id deeds = swapsOn id deeds) :
      (∀ a ∈ attemptsOn id deeds, a.IsGenuine κ tuning) ∧
        (attemptsOn id deeds).countP (·.route.step = step) ≤ tuning.budgets.maxAttempts step := by
    rw [hbegun]
    exact ⟨h.isGenuine_of_mem_swapsOn, h.countP_swapsOn_le hb id step⟩
  have hbegun := hserves.begun id
  cases ha : hands.attempt with
  | none => exact hnone (by simpa [ha] using hbegun)
  | some a =>
    by_cases hid : a.read.id = id
    · obtain ⟨hgen, hread, -⟩ := hserves.pending a ha
      rw [hid] at hread
      -- What is in hand completes the history of the record it was made with.
      have hpast := ((h.accounts id).history a.read hread).step hgen
      have hall : attemptsOn id deeds = swapsOn id deeds ++ [a] := by simpa [ha, hid] using hbegun
      rw [hall]
      exact ⟨hpast.isGenuine, Nat.le_of_add_right_le (hpast.countP_add_left_le hb step)⟩
    · exact hnone (by simpa [ha, hid] using hbegun)

/-- No record is worked on past its budgets. However many workers there are, and whatever becomes of
their writes, the attempts that were written under a name are no more of each kind than the budgets
grant, and so is the version of the record; and where a single worker is at work, and the store
always answers it, no more questions have been asked about the record either. -/
theorem Run.work_stays_within_budgets (hb : tuning.budgets.Admissible)
    (h : Run tuning (initial k) deeds w) :
    (∀ id step,
      (swapsOn id deeds).countP (·.route.step = step) ≤ tuning.budgets.maxAttempts step) ∧
    (∀ r ∈ w.registry.store.records, r.version ≤
      2 * tuning.budgets.identity + tuning.budgets.credentials + tuning.budgets.policy) ∧
    (∀ hands, Hands.Works {} deeds hands → ∀ id step,
      (callsOn id deeds).countP (·.step = step) ≤ tuning.budgets.maxAttempts step) := by
  refine ⟨h.countP_swapsOn_le hb, ?_, ?_⟩
  · intro r hr
    exact Nat.le_of_add_right_le ((h.history hr).version_add_stepsLeft_le hb)
  · intro hands hwork id step
    obtain ⟨hgen, hcount⟩ := h.countP_attemptsOn_le hb hwork id step
    exact (countP_callsOn_le hgen).trans hcount

theorem slow_services_are_asked_twice : ∃ deeds w hands r,
    (⟨2, 1, 1⟩ : Budgets).Admissible ∧
      Run { budgets := ⟨2, 1, 1⟩, backoff := { base := .zero } }
        (initial (⟨.ofSeconds 11⟩ : Bureau .welcome)) deeds w ∧
      Hands.Works {} deeds hands ∧ r ∈ w.registry.store.records ∧ r.state = .verificationFailed ∧
      r.version ≤ 6 ∧ (swapsOn r.id deeds).countP (·.route.step = .pickUp) ≤ 2 ∧
      (callsOn r.id deeds).countP (·.step = .resolveIdentity) ≤ 2 := by
  have hb : (⟨2, 1, 1⟩ : Budgets).Admissible := by
    intro phase
    cases phase <;> decide
  obtain ⟨deeds, w, hands, hrun, hw, -, hwork⟩ := exists_works_drain_submit
    { budgets := ⟨2, 1, 1⟩, backoff := { base := .zero } } (⟨.ofSeconds 11⟩ : Bureau .welcome)
    "did:web:participant" ⟨"1"⟩ (fun _ => .epoch) 5
  have hstates : w.registry.store.records.map Record.state = [.verificationFailed] := by
    rw [hw]
    decide +kernel
  obtain ⟨r, hr, hs⟩ := Store.exists_mem_of_map_state_eq hstates
  obtain ⟨hswaps, hversion, hcalls⟩ := hrun.work_stays_within_budgets hb
  exact ⟨deeds, w, hands, r, hb, hrun, hwork, hr, hs, hversion r hr, hswaps r.id .pickUp,
    hcalls hands hwork r.id .resolveIdentity⟩

end World

end Onboarding
