import Mathlib.Order.Basic
import Onboarding.Proofs.Instants
import Onboarding.Store.Lemmas

namespace Onboarding

namespace Record

variable {time : Record → Instant} {a b c : Record}

theorem precedes_iff :
    a.precedes time b = true ↔ time a < time b ∨ time a = time b ∧ a.id.text ≤ b.id.text := by
  unfold precedes
  rcases lt_trichotomy (time a) (time b) with h | h | h
  · simp [h]
  · simp [h]
  · simp [h, lt_asymm h, ne_of_gt h]

theorem time_le_of_precedes (h : a.precedes time b = true) : time a ≤ time b := by
  rcases precedes_iff.1 h with h | ⟨h, -⟩
  · exact le_of_lt h
  · exact le_of_eq h

theorem precedes_trans (hab : a.precedes time b = true) (hbc : b.precedes time c = true) :
    a.precedes time c = true := by
  rw [precedes_iff] at hab hbc ⊢
  rcases hab with hab | ⟨hab, hid⟩ <;> rcases hbc with hbc | ⟨hbc, hid'⟩
  · exact Or.inl (lt_trans hab hbc)
  · exact Or.inl (hbc ▸ hab)
  · exact Or.inl (hab ▸ hbc)
  · exact Or.inr ⟨hab.trans hbc, String.le_trans hid hid'⟩

theorem precedes_total (time : Record → Instant) (a b : Record) :
    a.precedes time b = true ∨ b.precedes time a = true := by
  rw [precedes_iff, precedes_iff]
  rcases lt_trichotomy (time a) (time b) with h | h | h
  · exact Or.inl (Or.inl h)
  · exact (String.le_total a.id.text b.id.text).imp (fun hid => Or.inr ⟨h, hid⟩)
      (fun hid => Or.inr ⟨h.symm, hid⟩)
  · exact Or.inr (Or.inl h)

theorem isDue_iff {r : Record} {now : Instant} :
    r.isDue now = true ↔ r.state.isTerminal = false ∧ r.nextAttemptAt ≤ now := by
  simp [isDue]

def waitsSince (r : Record) (since : Instant) : Bool :=
  !r.state.isTerminal && decide (r.stateTimestamp < since)

theorem waitsSince_iff {r : Record} {since : Instant} :
    r.waitsSince since = true ↔ r.state.isTerminal = false ∧ r.stateTimestamp < since := by
  simp [waitsSince]

theorem precedes_rfl : a.precedes time a = true := or_self_iff.1 (precedes_total time a a)

/-- Only records of one name come before each other both ways. -/
theorem id_eq_of_precedes (hab : a.precedes time b = true) (hba : b.precedes time a = true) :
    a.id = b.id := by
  rw [precedes_iff] at hab hba
  rcases hab with hab | ⟨hab, hid⟩
  · rcases hba with hba | ⟨hba, -⟩
    · exact absurd hba (lt_asymm hab)
    · exact absurd hab (by simp [hba])
  · rcases hba with hba | ⟨-, hid'⟩
    · exact absurd hba (by simp [hab])
    · exact congrArg ParticipantId.mk (String.le_antisymm hid hid')

theorem pairwise_precedes_mergeSort (time : Record → Instant) (l : List Record) :
    (l.mergeSort (precedes time)).Pairwise fun a b => a.precedes time b = true :=
  @List.pairwise_mergeSort Record (precedes time) (fun _ _ _ => precedes_trans)
    (fun a b => Bool.or_eq_true_iff.2 (precedes_total time a b)) l

end Record

namespace Store

/-- A search for the latest record finds one behind which no other comes. -/
theorem foldl_later_spec (l : List Record) (best : Record) :
    ∃ last, l.foldl later (some best) = some last ∧ (last = best ∨ last ∈ l) ∧
      best.precedes Record.createdAt last = true ∧
      ∀ r ∈ l, r.precedes Record.createdAt last = true := by
  -- The best so far only ever moves on to what comes later.
  induction l generalizing best with
  | nil => exact ⟨best, rfl, Or.inl rfl, Record.precedes_rfl, by simp⟩
  | cons r rest ih =>
    rw [List.foldl_cons, later]
    by_cases h : r.precedes Record.createdAt best = true
    · obtain ⟨last, hlast, hmem, hbest, hrest⟩ := ih best
      rw [if_pos h]
      refine ⟨last, hlast, hmem.imp_right (List.mem_cons_of_mem r), hbest, ?_⟩
      intro q hq
      rcases List.mem_cons.1 hq with rfl | hq
      · exact Record.precedes_trans h hbest
      · exact hrest q hq
    · obtain ⟨last, hlast, hmem, hr, hrest⟩ := ih r
      have hbest := (Record.precedes_total Record.createdAt r best).resolve_left h
      rw [if_neg h]
      refine ⟨last, hlast, Or.inr (hmem.elim ?_ (List.mem_cons_of_mem r)),
        Record.precedes_trans hbest hr, ?_⟩
      · rintro rfl
        exact List.mem_cons_self
      · intro q hq
        rcases List.mem_cons.1 hq with rfl | hq
        · exact hr
        · exact hrest q hq

/-- A participant has no latest record exactly if there is none at all. -/
theorem latest?_eq_none_iff {s : Store} {did : Did} :
    s.latest? did = none ↔ ∀ r ∈ s.records, r.did ≠ did := by
  unfold latest?
  cases hf : s.records.filter (·.did = did) with
  | nil =>
    rw [List.filter_eq_nil_iff] at hf
    simpa using hf
  | cons r rest =>
    obtain ⟨last, hlast, -⟩ := foldl_later_spec rest r
    have hr : r ∈ s.records.filter (·.did = did) := by rw [hf]; exact List.mem_cons_self
    have hsome : (r :: rest).foldl later none = some last := hlast
    simp only [hsome, reduceCtorEq, false_iff, not_forall]
    exact ⟨r, (List.mem_filter.1 hr).1, by simpa using (List.mem_filter.1 hr).2⟩

/-- The latest record of a participant comes last among those that there are. -/
theorem latest?_spec {s : Store} {did : Did} {last : Record} (h : s.latest? did = some last) :
    last ∈ s.records ∧ last.did = did ∧
      ∀ r ∈ s.records, r.did = did → r.precedes Record.createdAt last = true := by
  unfold latest? at h
  have hmem : ∀ r, r ∈ s.records.filter (·.did = did) ↔ r ∈ s.records ∧ r.did = did := by
    simp [List.mem_filter]
  cases hf : s.records.filter (·.did = did) with
  | nil =>
    rw [hf] at h
    cases h
  | cons r rest =>
    obtain ⟨q, hq, hin, hr, hrest⟩ := foldl_later_spec rest r
    rw [hf] at h hmem
    have hlast : q = last := Option.some.inj (hq.symm.trans h)
    subst hlast
    have hfound := (hmem q).1 (List.mem_cons.2 hin)
    refine ⟨hfound.1, hfound.2, ?_⟩
    intro p hp hdid
    rcases List.mem_cons.1 ((hmem p).2 ⟨hp, hdid⟩) with rfl | hp
    · exact hr
    · exact hrest p hp

/-- No other record comes last. -/
theorem latest?_eq_some_iff {s : Store} {did : Did} {last : Record} :
    s.latest? did = some last ↔ last ∈ s.records ∧ last.did = did ∧
      ∀ r ∈ s.records, r.did = did → r.precedes Record.createdAt last = true := by
  refine ⟨latest?_spec, ?_⟩
  rintro ⟨hmem, hdid, hall⟩
  cases hl : s.latest? did with
  | none => exact absurd hdid (latest?_eq_none_iff.1 hl last hmem)
  | some r =>
    obtain ⟨hr, hrdid, hrall⟩ := latest?_spec hl
    have hid := Record.id_eq_of_precedes (hall r hr hrdid) (hrall last hmem hdid)
    rw [eq_of_mem_of_id_eq hr hmem hid]

def queue (s : Store) (now : Instant) : List Record :=
  (s.records.filter (·.isDue now)).mergeSort (Record.precedes Record.stateTimestamp)

variable {s : Store} {now : Instant} {limit : Nat}

theorem lease_eq_take_queue : s.lease limit now = (s.queue now).take limit := rfl

theorem queue_perm : (s.queue now).Perm (s.records.filter (·.isDue now)) := List.mergeSort_perm _ _

theorem nodup_queue : ((s.queue now).map Record.id).Nodup :=
  (queue_perm.map Record.id).nodup_iff.2 (s.nodup.sublist (List.filter_sublist.map Record.id))

theorem queue_sorted :
    (s.queue now).Pairwise fun a b => a.precedes Record.stateTimestamp b = true :=
  Record.pairwise_precedes_mergeSort Record.stateTimestamp _

theorem queue_pairwise :
    (s.queue now).Pairwise fun a b => a.stateTimestamp ≤ b.stateTimestamp :=
  queue_sorted.imp Record.time_le_of_precedes

/-- Of a property that holds along a list up to some place only, a number of cases is left out with
as many items from the front, until there are none. -/
theorem countP_drop_of_pairwise {p : Record → Bool} {l : List Record}
    (h : l.Pairwise fun a b => p b = true → p a = true) (n : Nat) :
    (l.drop n).countP p = l.countP p - n := by
  induction l generalizing n with
  | nil => simp
  | cons r rest ih =>
    obtain ⟨hfirst, hrest⟩ := List.pairwise_cons.1 h
    cases n with
    | zero => simp
    | succ n =>
      rw [List.drop_succ_cons, ih hrest, List.countP_cons]
      by_cases hr : p r = true
      · rw [if_pos hr]
        omega
      · have hnone : rest.countP p = 0 :=
          List.countP_eq_zero.2 fun q hq hpq => hr (hfirst q hq hpq)
        rw [if_neg hr, hnone]
        omega

theorem countP_queue {p : Record → Bool} (h : ∀ r ∈ s.records, p r = true → r.isDue now = true) :
    (s.queue now).countP p = s.records.countP p := by
  rw [queue_perm.countP_eq, List.countP_filter]
  refine List.countP_congr ?_
  intro r hr
  simpa using h r hr

theorem id_notMem_lease_of_mem_drop :
    ∀ r ∈ (s.queue now).drop limit, r.id ∉ (s.lease limit now).map Record.id := by
  have hnodup := @nodup_queue s now
  rw [← List.take_append_drop limit (s.queue now), List.map_append, List.nodup_append] at hnodup
  intro r hr hmem
  exact hnodup.2.2 r.id hmem r.id (List.mem_map.2 ⟨r, hr, rfl⟩) rfl

/-- A record that is due is left out of a batch only if the batch is full, and all that is in it
comes before that record. -/
theorem length_lease_of_notMem {r : Record} (hr : r ∈ s.records) (hdue : r.isDue now = true)
    (hout : r ∉ s.lease limit now) :
    (s.lease limit now).length = limit ∧
      ∀ q ∈ s.lease limit now, q.precedes Record.stateTimestamp r = true ∧ q.id ≠ r.id := by
  have hqueue : r ∈ s.queue now := queue_perm.mem_iff.2 (List.mem_filter.2 ⟨hr, hdue⟩)
  have hrest : r ∈ (s.queue now).drop limit := by
    rw [← List.take_append_drop limit (s.queue now), List.mem_append] at hqueue
    exact hqueue.resolve_left hout
  constructor
  · have hpos := List.length_pos_of_mem hrest
    rw [List.length_drop] at hpos
    rw [lease_eq_take_queue, List.length_take]
    omega
  · intro q hq
    have hsorted := @queue_sorted s now
    rw [← List.take_append_drop limit (s.queue now), List.pairwise_append] at hsorted
    refine ⟨hsorted.2.2 q hq r hrest, ?_⟩
    intro hid
    exact id_notMem_lease_of_mem_drop r hrest (List.mem_map.2 ⟨q, hq, hid⟩)

theorem exists_perm_lease_append (s : Store) (limit : Nat) (now : Instant) :
    ∃ rest, s.records.Perm (s.lease limit now ++ rest) := by
  let waiting := s.records.filter fun r => !r.isDue now
  have hsplit : s.records.Perm (s.queue now ++ waiting) :=
    (List.filter_append_perm _ _).symm.trans (queue_perm.symm.append_right waiting)
  refine ⟨(s.queue now).drop limit ++ waiting, ?_⟩
  rwa [lease_eq_take_queue, ← List.append_assoc, List.take_append_drop]

/-- A batch takes as many as it can of the records that have been in their state since before some
time, if all that have not ended are due. -/
theorem countP_not_leased {since : Instant}
    (hdue : ∀ r ∈ s.records, r.state.isTerminal = false → r.isDue now = true) :
    s.records.countP (fun r =>
        r.waitsSince since && decide (r.id ∉ (s.lease limit now).map Record.id)) =
      s.records.countP (·.waitsSince since) - limit := by
  have hwaits : ∀ r ∈ s.records, r.waitsSince since = true → r.isDue now = true := by
    intro r hr hw
    exact hdue r hr (Record.waitsSince_iff.1 hw).1
  have hmono : (s.queue now).Pairwise fun a b => b.waitsSince since = true →
      a.waitsSince since = true := by
    refine queue_pairwise.imp_of_mem ?_
    intro a b ha _ hab hb
    have hopen := (List.mem_filter.1 (queue_perm.mem_iff.1 ha)).2
    rw [Record.waitsSince_iff] at hb ⊢
    exact ⟨(Record.isDue_iff.1 hopen).1, lt_of_le_of_lt hab hb.2⟩
  -- What is in the batch is not counted, and nothing else is left out.
  let p (r : Record) : Bool :=
    r.waitsSince since && decide (r.id ∉ (s.lease limit now).map Record.id)
  have htaken : ((s.queue now).take limit).countP p = 0 := by
    refine List.countP_eq_zero.2 ?_
    intro r hr hp
    exact of_decide_eq_true (Bool.and_eq_true_iff.1 hp).2 (List.mem_map.2 ⟨r, hr, rfl⟩)
  have hleft : ((s.queue now).drop limit).countP p =
      ((s.queue now).drop limit).countP (·.waitsSince since) := by
    refine List.countP_congr ?_
    intro r hr
    simp only [p, Bool.and_eq_true_iff, decide_eq_true (id_notMem_lease_of_mem_drop r hr), and_true]
  calc s.records.countP p
      = (s.queue now).countP p :=
        (countP_queue fun r hr hp => hwaits r hr (Bool.and_eq_true_iff.1 hp).1).symm
    _ = ((s.queue now).take limit).countP p + ((s.queue now).drop limit).countP p := by
        rw [← List.countP_append, List.take_append_drop]
    _ = (s.queue now).countP (·.waitsSince since) - limit := by
        rw [htaken, hleft, Nat.zero_add, countP_drop_of_pairwise hmono]
    _ = s.records.countP (·.waitsSince since) - limit := by rw [countP_queue hwaits]

/-- A batch is empty exactly if nothing is due. -/
theorem lease_eq_nil_iff (hlimit : 1 ≤ limit) :
    s.lease limit now = [] ↔ ∀ r ∈ s.records, ¬r.isDue now = true := by
  have hqueue : s.queue now = [] ↔ s.records.filter (·.isDue now) = [] := by
    rw [← List.length_eq_zero_iff, queue_perm.length_eq, List.length_eq_zero_iff]
  rw [lease_eq_take_queue, List.take_eq_nil_iff, hqueue, List.filter_eq_nil_iff,
    or_iff_right (by omega)]

end Store

end Onboarding
