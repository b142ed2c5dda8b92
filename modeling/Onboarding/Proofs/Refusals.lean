import Mathlib.Data.List.Nodup
import Onboarding.Proofs.Sweeps
import Onboarding.Proofs.Verdicts
import Onboarding.Service
import Onboarding.Store.Lemmas

namespace Onboarding

/-- A store that may refuse what it is asked for, a batch or a write by its number, and then leaves
the records as they are. It takes down the writes that it was asked for. -/
structure RefusingStore where
  store : Store
  leaseRefusal : Option StoreError := none
  swapRefusal : Nat → Option StoreError := fun _ => none
  asked : List Record := []

instance : RecordStore RefusingStore where
  create s r :=
    let (result, store) := RecordStore.create s.store r
    (result, { s with store })
  get s id := (s.store.get id, s)
  latest s did := (.ok (s.store.latest? did), s)
  list s state := (.ok (s.store.list state), s)
  lease s limit now :=
    match s.leaseRefusal with
    | some e => (.error e, s)
    | none => (.ok (s.store.lease limit now), s)
  compareAndSwap s r expected :=
    let noted := { s with asked := s.asked ++ [r] }
    match s.swapRefusal s.asked.length with
    | some e => (.error e, noted)
    | none =>
      let (result, store) := RecordStore.compareAndSwap s.store r expected
      (result, { noted with store })

namespace RefusingStore

def refusal (s : RefusingStore) (i : Nat) : Option StoreError :=
  -- The store refuses a write when so many others are still to come.
  s.swapRefusal (s.asked.length + i)

def answer (s : RefusingStore) (i : Nat) (a : Attempt) : Except StoreError Record :=
  match s.refusal i with
  | some e => .error e
  | none => .ok a.written

def result (s : RefusingStore) (i : Nat) (a : Attempt) : Record :=
  if (s.refusal i).isSome then a.read else a.written

structure Wrote (s : RefusingStore) (attempts : List Attempt) (t : RefusingStore) : Prop where
  asked : t.asked = s.asked ++ attempts.map Attempt.next
  found : ∀ i a, attempts[i]? = some a → t.store.find? a.read.id = some (s.result i a)
  others : ∀ id, id ∉ attempts.map (·.read.id) → t.store.find? id = s.store.find? id

variable {s t : RefusingStore} {a : Attempt}

/-- A write with a record as it is stored succeeds unless it is refused, and then changes this
record only. -/
theorem swap_of_fresh (hid : a.next.id = a.read.id)
    (hfresh : s.store.find? a.read.id = some a.read) :
    ∃ t, RecordStore.compareAndSwap s a.next a.read.version = (s.answer 0 a, t) ∧
      t.asked = s.asked ++ [a.next] ∧ (∀ i, t.refusal i = s.refusal (i + 1)) ∧
      ∀ id, t.store.find? id =
        if id = a.read.id then some (s.result 0 a) else s.store.find? id := by
  -- A write that was asked for shifts the refusals to come by one.
  have hshift (store : Store) (i : Nat) :
      refusal { s with asked := s.asked ++ [a.next], store } i = s.refusal (i + 1) := by
    have hlength : (s.asked ++ [a.next]).length + i = s.asked.length + (i + 1) := by
      rw [List.length_append, List.length_singleton]
      omega
    simp only [refusal, hlength]
  cases hr : s.refusal 0 with
  | some e =>
    have hr' : s.swapRefusal s.asked.length = some e := hr
    refine ⟨{ s with asked := s.asked ++ [a.next] }, ?_, rfl, hshift s.store, ?_⟩
    · simp only [RecordStore.compareAndSwap, hr', answer, hr]
    · intro id
      have hkeep : s.result 0 a = a.read := by simp [result, hr]
      rw [hkeep]
      by_cases h : id = a.read.id
      · rw [if_pos h, h, hfresh]
      · rw [if_neg h]
  | none =>
    have hr' : s.swapRefusal s.asked.length = none := hr
    have hswap : s.store.compareAndSwap a.next a.read.version =
        .ok (a.written, s.store.replace a.written) :=
      Store.compareAndSwap_eq_ok_iff.2 ⟨⟨a.read, by rw [hid, hfresh], rfl⟩, rfl, rfl⟩
    refine ⟨{ s with asked := s.asked ++ [a.next], store := s.store.replace a.written }, ?_, rfl,
      hshift _, ?_⟩
    · simp only [RecordStore.compareAndSwap, hr', hswap, answer, hr]
    · intro id
      have hwritten : s.result 0 a = a.written := by simp [result, hr]
      have hname : a.written.id = a.read.id := hid
      rw [Store.find?_replace, hwritten, hname]
      by_cases h : id = a.read.id
      · rw [if_pos h, if_pos h, h, hfresh]
        rfl
      · rw [if_neg h, if_neg h]

/-- Attempts with different records as they are stored do not come in one another's way. -/
theorem writeAll_spec (attempts : List Attempt) : ∀ s : RefusingStore,
    (∀ a ∈ attempts, s.store.find? a.read.id = some a.read) →
    (∀ a ∈ attempts, a.next.id = a.read.id) → (attempts.map (·.read.id)).Nodup →
    (Attempt.writeAll s attempts).1 = attempts.mapIdx (fun i a => a.told (s.answer i a)) ∧
      s.Wrote attempts (Attempt.writeAll s attempts).2 := by
  -- On the attempts. What is refused to the rest is refused one write later to all of them.
  induction attempts with
  | nil =>
    intro s _ _ _
    exact ⟨rfl, ⟨by simp [Attempt.writeAll], by simp, fun _ _ => rfl⟩⟩
  | cons a rest ih =>
    intro s hfresh hid hnodup
    rw [List.map_cons, List.nodup_cons] at hnodup
    obtain ⟨t, hswap, hasked, hrefusal, hfind⟩ :=
      swap_of_fresh (hid a List.mem_cons_self) (hfresh a List.mem_cons_self)
    have hne : ∀ b ∈ rest, b.read.id ≠ a.read.id := by
      intro b hb h
      exact hnodup.1 (List.mem_map.2 ⟨b, hb, h⟩)
    have hfresh' : ∀ b ∈ rest, t.store.find? b.read.id = some b.read := by
      intro b hb
      rw [hfind, if_neg (hne b hb)]
      exact hfresh b (List.mem_cons_of_mem a hb)
    obtain ⟨htold, hwrote⟩ :=
      ih t hfresh' (fun b hb => hid b (List.mem_cons_of_mem a hb)) hnodup.2
    have hanswer (i : Nat) (b : Attempt) : t.answer i b = s.answer (i + 1) b := by
      rw [answer, answer, hrefusal]
    have hresult (i : Nat) (b : Attempt) : t.result i b = s.result (i + 1) b := by
      rw [result, result, hrefusal]
    simp only [Attempt.writeAll, hswap]
    refine ⟨?_, ?_, ?_, ?_⟩
    · rw [htold, List.mapIdx_cons]
      simp only [hanswer]
    · rw [hwrote.asked, hasked, List.append_assoc]
      rfl
    · intro i b hb
      cases i with
      | zero =>
        -- What was written first is not touched again.
        rw [List.getElem?_cons_zero, Option.some.injEq] at hb
        rw [← hb, hwrote.others a.read.id hnodup.1, hfind, if_pos rfl]
      | succ i =>
        rw [← hresult]
        exact hwrote.found i b (by simpa using hb)
    · intro id hnot
      rw [List.map_cons, List.mem_cons, not_or] at hnot
      rw [hwrote.others id hnot.2, hfind, if_neg hnot.1]

theorem store_of_swap_eq_error {r : Record} {expected : Nat} {e : StoreError}
    (h : RecordStore.compareAndSwap s r expected = (.error e, t)) : t.store = s.store := by
  simp only [RecordStore.compareAndSwap] at h
  cases hr : s.swapRefusal s.asked.length with
  | some e' =>
    rw [hr] at h
    cases h
    rfl
  | none =>
    rw [hr] at h
    cases hs : s.store.compareAndSwap r expected with
    | ok pair =>
      simp only [hs] at h
      cases h
    | error e' =>
      simp only [hs] at h
      cases h
      rfl

end RefusingStore

theorem Attempt.IsGenuine.isWritten_outcome {κ : Type} [Collaborators κ] {tuning : Tuning}
    {a : Attempt} (h : a.IsGenuine κ tuning) : a.outcome.isWritten = true := by
  cases h.course with
  | begun _ _ ho _ | resolved _ _ _ _ _ ho _ | verified _ _ _ _ _ _ _ ho _
  | allowed _ _ _ _ _ _ ho _ | denied _ _ _ _ _ _ _ ho _ | withoutIdentity _ _ _ ho _
  | withoutClaims _ _ _ ho _ | refused _ _ _ _ _ _ _ ho _ | exhausted _ _ _ _ _ _ _ _ ho _
  | deferred _ _ _ _ _ _ _ _ ho _ =>
    rw [ho]
    rfl

/-- A step counts as written exactly if its write was not refused. -/
theorem RefusingStore.isWritten_iff {κ : Type} [Collaborators κ] {tuning : Tuning}
    {s : RefusingStore} {a : Attempt} {i : Nat} {outcome : Outcome} (ha : a.IsGenuine κ tuning)
    (h : a.told (s.answer i a) = .ok outcome) :
    outcome.isWritten = true ↔ s.refusal i = none := by
  cases hr : s.refusal i with
  | none =>
    simp only [answer, hr, Attempt.told, Except.ok.injEq] at h
    rw [← h, ha.isWritten_outcome]
    exact iff_of_true rfl rfl
  | some e =>
    simp only [answer, hr] at h
    refine iff_of_false ?_ (by simp)
    cases e <;> cases h <;> simp [Outcome.isWritten]

namespace CycleReport

structure Agrees (report : CycleReport) (stalled : Nat) (batch : List Record)
    (outcomes : List Outcome) (before after : Store) : Prop where
  counted : report = including { leased := batch.length } stalled outcomes
  leased : report.leased = batch.length
  stalled : report.stalled = stalled
  sum : report.leased =
    report.advanced + report.retried + report.failed + report.conflicts + report.skipped
  changed : ∃ changed : List ParticipantId, changed.Nodup ∧
    changed.length = report.advanced + report.retried + report.failed ∧
    ∀ id, id ∈ changed ↔ after.find? id ≠ before.find? id

end CycleReport

namespace Registry

variable {κ : Type} [Collaborators κ]

/-- What a cycle has done when it has come to the end of its batch or to the end of its way:
attempts with the first records of the batch, in their order, and their writes. -/
structure Swept (reg after : Registry RefusingStore κ) (tuning : Tuning) (clock : Nat → Instant)
    (batch : List Record) (attempts : List Attempt) : Prop where
  distinct : (batch.map Record.id).Nodup
  inOrder : attempts.map Attempt.read <+: batch
  fresh : ∀ a ∈ attempts, reg.store.store.find? a.read.id = some a.read
  series : Attempt.Series tuning clock 1 reg.collaborators attempts after.collaborators
  stamped : ∀ i a, attempts[i]? = some a → a.written.stateTimestamp = clock (1 + i)
  wrote : reg.store.Wrote attempts after.store

variable {reg after : Registry RefusingStore κ} {tuning : Tuning} {clock : Nat → Instant}
  {batch : List Record} {attempts : List Attempt} {outcomes : List Outcome}

theorem cycle_of_leaseRefusal {e : StoreError} (h : reg.store.leaseRefusal = some e) :
    reg.cycle tuning clock = (.error e, reg) := by
  simp only [cycle, RecordStore.lease, h]

theorem cycle_of_lease (h : reg.store.leaseRefusal = none) :
    reg.cycle tuning clock =
      advanceAll tuning clock 1
        { leased := (reg.store.store.lease tuning.batchSize (clock 0)).length }
        (reg.store.store.lease tuning.batchSize (clock 0)) reg := by
  simp only [cycle, RecordStore.lease, h]

/-- What a worker was told about an attempt, found by its place. -/
theorem exists_outcome {s : RefusingStore}
    (h : attempts.mapIdx (fun i a => a.told (s.answer i a)) = outcomes.map .ok) {i : Nat}
    {a : Attempt} (ha : attempts[i]? = some a) :
    ∃ outcome, outcomes[i]? = some outcome ∧ a.told (s.answer i a) = .ok outcome := by
  have hi : (outcomes.map .ok)[i]? = some (a.told (s.answer i a)) := by
    rw [← h, List.getElem?_mapIdx, ha]
    rfl
  rw [List.getElem?_map, Option.map_eq_some_iff] at hi
  obtain ⟨outcome, ho, htold⟩ := hi
  exact ⟨outcome, ho, htold.symm⟩

/-- Where a worker is told of an error at last, it is the first that ends a cycle. -/
theorem refusal_of_told_eq {s : RefusingStore} {e : StoreError}
    (h : attempts.mapIdx (fun i a => a.told (s.answer i a)) = outcomes.map .ok ++ [.error e]) :
    attempts.length = outcomes.length + 1 ∧
      (s.refusal outcomes.length = some e ∧ e.endsCycle = true) ∧
      ∀ j < outcomes.length, ∀ e', s.refusal j = some e' → e'.endsCycle = false := by
  have hlength : attempts.length = outcomes.length + 1 := by
    have hsame := congrArg List.length h
    rwa [List.length_mapIdx, List.length_append, List.length_map] at hsame
  -- What the worker was told, attempt by attempt.
  have htold (j : Nat) : (attempts[j]?).map (fun a => a.told (s.answer j a)) =
      (outcomes.map Except.ok ++ [.error e])[j]? := by
    rw [← h, List.getElem?_mapIdx]
  refine ⟨hlength, ?_, ?_⟩
  · have hlast := htold outcomes.length
    rw [List.getElem?_append_right (by simp), List.length_map, Nat.sub_self,
      List.getElem?_cons_zero, Option.map_eq_some_iff] at hlast
    obtain ⟨a, -, ha⟩ := hlast
    obtain ⟨hanswer, hends⟩ := Attempt.told_eq_error ha
    refine ⟨?_, hends⟩
    unfold RefusingStore.answer at hanswer
    cases hr : s.refusal outcomes.length with
    | none =>
      rw [hr] at hanswer
      cases hanswer
    | some e' =>
      rw [hr] at hanswer
      cases hanswer
      rfl
  · intro j hj e' he'
    have hbefore := htold j
    rw [List.getElem?_append_left (by simpa using hj), List.getElem?_map,
      List.getElem?_eq_getElem hj, Option.map_some, Option.map_eq_some_iff] at hbefore
    obtain ⟨a, -, ha⟩ := hbefore
    rw [RefusingStore.answer, he'] at ha
    exact Attempt.endsCycle_of_told_eq_ok ha

/-- The record of an attempt is another one after it exactly if its step counts as written. -/
theorem Swept.isWritten_iff_changed (h : reg.Swept after tuning clock batch attempts)
    (htold : attempts.mapIdx (fun i a => a.told (reg.store.answer i a)) = outcomes.map .ok)
    {i : Nat} {a : Attempt} {outcome : Outcome} (ha : attempts[i]? = some a)
    (ho : outcomes[i]? = some outcome) :
    outcome.isWritten = true ↔
      after.store.store.find? a.read.id ≠ reg.store.store.find? a.read.id := by
  have hmem := List.mem_of_getElem? ha
  obtain ⟨outcome', ho', htolds⟩ := exists_outcome htold ha
  rw [ho, Option.some.injEq] at ho'
  subst ho'
  rw [RefusingStore.isWritten_iff (h.series.isGenuine a hmem) htolds, h.wrote.found i a ha,
    h.fresh a hmem, RefusingStore.result]
  cases hr : reg.store.refusal i with
  | none =>
    -- What is written has another version.
    refine iff_of_true rfl ?_
    intro hsame
    have hversion := congrArg Record.version (Option.some.inj hsame)
    simp [Attempt.written] at hversion
  | some e => simp

/-- The records that are different are those whose write was not refused. -/
theorem Swept.exists_changed (h : reg.Swept after tuning clock batch attempts)
    (htold : attempts.mapIdx (fun i a => a.told (reg.store.answer i a)) = outcomes.map .ok) :
    ∃ changed : List ParticipantId, changed.Nodup ∧
      changed.length = outcomes.countP Outcome.isWritten ∧
      ∀ id, id ∈ changed ↔ after.store.store.find? id ≠ reg.store.store.find? id := by
  have hlength : attempts.length = outcomes.length := by
    have hsame := congrArg List.length htold
    rwa [List.length_mapIdx, List.length_map] at hsame
  let pairs := (attempts.zip outcomes).filter (·.2.isWritten)
  refine ⟨pairs.map (·.1.read.id), ?_, ?_, ?_⟩
  · -- The names of all attempts differ, and these are some of them.
    have hall : (attempts.zip outcomes).map (·.1.read.id) = attempts.map (·.read.id) := by
      have hfst : (attempts.zip outcomes).map Prod.fst = attempts :=
        List.map_fst_zip (Nat.le_of_eq hlength)
      calc (attempts.zip outcomes).map (·.1.read.id)
        _ = ((attempts.zip outcomes).map Prod.fst).map (·.read.id) := by
          rw [List.map_map]
          rfl
        _ = attempts.map (·.read.id) := by rw [hfst]
    have hsub : (pairs.map (·.1.read.id)).Sublist ((attempts.zip outcomes).map (·.1.read.id)) :=
      List.filter_sublist.map _
    rw [hall] at hsub
    exact (Attempt.nodup_of_prefix h.distinct h.inOrder).sublist hsub
  · have hsnd : (attempts.zip outcomes).map Prod.snd = outcomes :=
      List.map_snd_zip (Nat.le_of_eq hlength.symm)
    calc (pairs.map (·.1.read.id)).length
      _ = (attempts.zip outcomes).countP (·.2.isWritten) := by
        rw [List.length_map, List.countP_eq_length_filter]
      _ = ((attempts.zip outcomes).map Prod.snd).countP Outcome.isWritten := by
        rw [List.countP_map]
        rfl
      _ = outcomes.countP Outcome.isWritten := by rw [hsnd]
  · intro id
    constructor
    · intro hid
      obtain ⟨⟨a, outcome⟩, hpair, rfl⟩ := List.mem_map.1 hid
      obtain ⟨hzip, hwritten⟩ := List.mem_filter.1 hpair
      obtain ⟨i, hi⟩ := List.mem_iff_getElem?.1 hzip
      obtain ⟨ha, ho⟩ := List.getElem?_zip_eq_some.1 hi
      exact (h.isWritten_iff_changed htold ha ho).1 hwritten
    · intro hne
      have hnamed : id ∈ attempts.map (·.read.id) :=
        Decidable.byContradiction fun hnot => hne (h.wrote.others id hnot)
      obtain ⟨a, hmem, rfl⟩ := List.mem_map.1 hnamed
      obtain ⟨i, ha⟩ := List.mem_iff_getElem?.1 hmem
      obtain ⟨outcome, ho, -⟩ := exists_outcome htold ha
      have hwritten := (h.isWritten_iff_changed htold ha ho).2 hne
      have hzip : (a, outcome) ∈ attempts.zip outcomes :=
        List.mem_iff_getElem?.2 ⟨i, List.getElem?_zip_eq_some.2 ⟨ha, ho⟩⟩
      exact List.mem_map.2 ⟨(a, outcome), List.mem_filter.2 ⟨hzip, hwritten⟩, rfl⟩

/-- A cycle that came to the end of its batch reports what was written. -/
theorem Swept.agrees (h : reg.Swept after tuning clock batch attempts)
    (hall : attempts.map Attempt.read = batch)
    (htold : attempts.mapIdx (fun i a => a.told (reg.store.answer i a)) = outcomes.map .ok)
    (stalled : Nat) :
    (CycleReport.including { leased := batch.length } stalled outcomes).Agrees stalled batch
      outcomes reg.store.store after.store.store := by
  obtain ⟨hleased, hstalled, hwritten, hlost⟩ :=
    CycleReport.including_spec batch.length stalled outcomes
  obtain ⟨changed, hnodup, hchanged, hmem⟩ := h.exists_changed htold
  have hlength : outcomes.length = batch.length := by
    have hsame := congrArg List.length htold
    rw [List.length_mapIdx, List.length_map] at hsame
    rw [← hall, List.length_map, hsame]
  have hsplit : outcomes.length =
      outcomes.countP Outcome.isWritten + outcomes.countP (!·.isWritten) := by
    simpa using List.length_eq_countP_add_countP Outcome.isWritten (l := outcomes)
  refine ⟨rfl, hleased, hstalled, ?_, changed, hnodup, ?_, hmem⟩
  · omega
  · rw [hchanged, hwritten]

/-- From the place where a write was refused and no other followed, the batch is as it was. -/
theorem Swept.find?_of_mem_drop (h : reg.Swept after tuning clock batch attempts) {i : Nat}
    (hlast : attempts.length = i + 1) {e : StoreError} (hrefused : reg.store.refusal i = some e)
    {r : Record} (hr : r ∈ batch.drop i) (hstored : reg.store.store.find? r.id = some r) :
    after.store.store.find? r.id = some r := by
  by_cases hnamed : r.id ∈ attempts.map (·.read.id)
  · obtain ⟨a, hmem, hid⟩ := List.mem_map.1 hnamed
    obtain ⟨j, ha⟩ := List.mem_iff_getElem?.1 hmem
    have hread : a.read = r := by
      have hfresh := h.fresh a hmem
      rw [hid, hstored, Option.some.injEq] at hfresh
      exact hfresh.symm
    -- The record has one place in the batch, which is in the attempts and not before `i`.
    have hj : j = i := by
      obtain ⟨k, hk⟩ := List.mem_iff_getElem?.1 hr
      rw [List.getElem?_drop] at hk
      have hplace : batch[j]? = some r := by
        obtain ⟨rest, hbatch⟩ := h.inOrder
        have hin : (attempts.map Attempt.read)[j]? = some r := by
          rw [List.getElem?_map, ha, Option.map_some, hread]
        have hlt := (List.getElem?_eq_some_iff.1 hin).1
        rw [← hbatch, List.getElem?_append_left hlt, hin]
      have hlt := (List.getElem?_eq_some_iff.1 hplace).1
      have hsame : j = i + k :=
        (List.getElem?_inj hlt (h.distinct.of_map Record.id)).1 (hplace.trans hk.symm)
      have hbound := (List.getElem?_eq_some_iff.1 ha).1
      omega
    have hfound := h.wrote.found j a ha
    rw [hj, RefusingStore.result, hrefused] at hfound
    rw [← hid, hfound, ← hread]
    rfl
  · rw [h.wrote.others r.id hnamed, hstored]

/-- What a cycle has written is what its report says. A cycle takes the records of its batch in
their order, each at most once, at a reading of the clock of its own; it asks the services about
them only and writes them only. If it reports, it has gone through the whole batch, the counts of
the report add up, and as many records are different as were advanced, put off and ended. If it ends
with an error, then either there was no batch and nothing has happened, or the error is the first
one that ends a cycle among those that the writes have met with; what was written before that
stays, and the rest is as it was. Versions that sixty-four bits hold do not outgrow them while those
of the batch are below the greatest. -/
theorem cycle_accounts (reg : Registry RefusingStore κ) (tuning : Tuning)
    (clock : Nat → Instant) :
    let batch := reg.store.store.lease tuning.batchSize (clock 0)
    let result := (reg.cycle tuning clock).1
    let after := (reg.cycle tuning clock).2
    batch.length ≤ tuning.batchSize ∧
    (∀ e, reg.store.leaseRefusal = some e → result = .error e ∧ after = reg) ∧
    (reg.store.leaseRefusal = none → ∃ attempts : List Attempt,
      reg.Swept after tuning clock batch attempts ∧
      ((∀ r ∈ batch, r.version < Number.max64) →
        ∀ a ∈ attempts, a.written.version ≤ Number.max64) ∧
      ((∃ report outcomes, result = .ok report ∧ attempts.map Attempt.read = batch ∧
          attempts.mapIdx (fun i a => a.told (reg.store.answer i a)) = outcomes.map .ok ∧
          report.Agrees (stalledIn tuning clock 1 batch) batch outcomes reg.store.store
            after.store.store) ∨
        ∃ i e, result = .error e ∧ attempts.length = i + 1 ∧ reg.store.refusal i = some e ∧
          e.endsCycle = true ∧
          (∀ j < i, ∀ e', reg.store.refusal j = some e' → e'.endsCycle = false) ∧
          ∀ r ∈ batch.drop i, after.store.store.find? r.id = some r)) := by
  intro batch result after
  refine ⟨reg.store.store.length_lease_le _ _, ?_, ?_⟩
  · intro e he
    have hcycle : reg.cycle tuning clock = (.error e, reg) := cycle_of_leaseRefusal he
    exact ⟨congrArg Prod.fst hcycle, congrArg Prod.snd hcycle⟩
  · intro hnone
    have hcycle : reg.cycle tuning clock =
        advanceAll tuning clock 1 { leased := batch.length } batch reg := cycle_of_lease hnone
    have hbatch : ∀ r ∈ batch,
        reg.store.store.find? r.id = some r ∧ r.state.isTerminal = false := by
      intro r hr
      obtain ⟨hmem, hdue⟩ := Store.mem_of_mem_lease hr
      simp only [Record.isDue, Bool.and_eq_true, Bool.not_eq_true'] at hdue
      exact ⟨Store.find?_eq_some_iff.2 ⟨hmem, rfl⟩, hdue.1⟩
    obtain ⟨attempts, hseries, hstore, hinOrder, hend⟩ := exists_series tuning clock batch reg 1
      { leased := batch.length } fun r hr => (hbatch r hr).2
    rw [← hcycle] at hseries hstore hend
    -- The batch was read from this very store, so that each attempt is made with what is stored.
    have hfresh : ∀ a ∈ attempts, reg.store.store.find? a.read.id = some a.read := by
      intro a ha
      exact (hbatch a.read (hinOrder.subset (List.mem_map.2 ⟨a, ha, rfl⟩))).1
    have hdistinct := reg.store.store.nodup_lease tuning.batchSize (clock 0)
    obtain ⟨htold, hwrote⟩ := RefusingStore.writeAll_spec attempts reg.store hfresh
      (fun a ha => (hseries.isGenuine a ha).next_id) (Attempt.nodup_of_prefix hdistinct hinOrder)
    rw [← hstore] at hwrote
    rw [htold] at hend
    have hstamped : ∀ i a, attempts[i]? = some a → a.written.stateTimestamp = clock (1 + i) := by
      intro i a ha
      have hgen := hseries.isGenuine a (List.mem_of_getElem? ha)
      exact hgen.written_at.1.trans (hseries.now_eq ha)
    have hswept : reg.Swept after tuning clock batch attempts :=
      ⟨hdistinct, hinOrder, hfresh, hseries, hstamped, hwrote⟩
    have hversions : (∀ r ∈ batch, r.version < Number.max64) →
        ∀ a ∈ attempts, a.written.version ≤ Number.max64 := by
      intro hbelow a ha
      rw [(hseries.isGenuine a ha).leadsTo.version]
      exact hbelow a.read (hinOrder.subset (List.mem_map.2 ⟨a, ha, rfl⟩))
    refine ⟨attempts, hswept, hversions, ?_⟩
    -- Either the batch was worked off, or the last attempt met with the error.
    rcases hend with ⟨outcomes, hread, htolds, hreport⟩ | ⟨outcomes, e, htolds, herror⟩
    · exact Or.inl ⟨_, outcomes, hreport, hread, htolds, hswept.agrees hread htolds _⟩
    · obtain ⟨hlast, hrefused, hbefore⟩ := refusal_of_told_eq htolds
      refine Or.inr ⟨outcomes.length, e, herror, hlast, hrefused.1, hrefused.2, hbefore, ?_⟩
      intro r hr
      exact hswept.find?_of_mem_drop hlast hrefused.1 hr (hbatch r (List.mem_of_mem_drop hr)).1

def writesOnce : Registry RefusingStore (Bureau .welcome) :=
  let swapRefusal (i : Nat) : Option StoreError :=
    if i = 0 then none else some (.unavailable "full")
  let start : Registry RefusingStore (Bureau .welcome) :=
    { store := { store := .empty, swapRefusal }, collaborators := ⟨.zero⟩ }
  ((start.submit "did:web:first" ⟨"1"⟩ .epoch).2.submit "did:web:second" ⟨"2"⟩ .epoch).2

/-- The second write ends the cycle, and the first one stays. -/
theorem second_write_is_refused :
    let batch := writesOnce.store.store.lease 50 .epoch
    let after := (writesOnce.cycle {} fun _ => .epoch).2
    batch.length = 2 ∧ (writesOnce.cycle {} fun _ => .epoch).1 = .error (.unavailable "full") ∧
      ∃ attempts, writesOnce.Swept after {} (fun _ => .epoch) batch attempts ∧
        attempts.length = 2 ∧ ∀ r ∈ batch.drop 1, after.store.store.find? r.id = some r := by
  intro batch after
  have hbatch : batch.length = 2 := by
    have hdue : (writesOnce.store.store.records.filter (·.isDue .epoch)).length = 2 := by
      decide +kernel
    exact (Store.length_lease _ _ _).trans (by rw [hdue]; rfl)
  obtain ⟨-, -, hsweep⟩ := writesOnce.cycle_accounts {} fun _ => .epoch
  obtain ⟨attempts, hswept, -, hend⟩ := hsweep rfl
  rcases hend with
    ⟨_, outcomes, -, hall, htold, -⟩ | ⟨i, e, hresult, hlength, hrefused, -, -, hrest⟩
  · -- A cycle that reports would have written twice.
    have hlength : 1 < attempts.length := by
      rw [← List.length_map Attempt.read, hall, hbatch]
      decide
    obtain ⟨outcome, -, hsecond⟩ := exists_outcome htold (List.getElem?_eq_getElem hlength)
    cases hsecond
  · have hle := hswept.inOrder.length_le
    rw [List.length_map, hlength, hbatch] at hle
    have hsecond : i = 1 ∧ e = .unavailable "full" := by
      match i, hle with
      | 0, _ => cases hrefused
      | 1, _ =>
        cases hrefused
        exact ⟨rfl, rfl⟩
    obtain ⟨rfl, rfl⟩ := hsecond
    exact ⟨hbatch, hresult, attempts, hswept, hlength, hrest⟩

end Registry

end Onboarding
