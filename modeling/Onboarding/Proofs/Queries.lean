import Mathlib.Data.List.Nodup
import Onboarding.Proofs.Fairness

/-!
What a store shows when it is asked. Records come by their time, and by their names among equal
times, which leaves nothing open.
-/

namespace Onboarding

namespace Record

variable {time : Record → Instant} {a b : Record}

def IsBefore (time : Record → Instant) (a b : Record) : Prop :=
  time a < time b ∨ time a = time b ∧ a.id.text < b.id.text

theorem isBefore_of_precedes (h : a.precedes time b = true) (hid : a.id ≠ b.id) :
    a.IsBefore time b := by
  rcases precedes_iff.1 h with hlt | ⟨heq, hle⟩
  · exact Or.inl hlt
  · refine Or.inr ⟨heq, ?_⟩
    -- Names that are not smaller would be equal, and so would the records' names.
    by_contra hnot
    have hge : b.id.text ≤ a.id.text := by
      by_contra hgt
      exact hnot (String.not_le.1 hgt)
    have htext : a.id.text = b.id.text := String.le_antisymm hle hge
    exact hid (congrArg ParticipantId.mk htext)

end Record

namespace Store

variable {l l' : List Record} {s : Store}

/-- Sorted by a time, records with distinct names are in strict order. -/
theorem pairwise_isBefore_mergeSort (time : Record → Instant) (hl : (l.map Record.id).Nodup) :
    (l.mergeSort (Record.precedes time)).Pairwise (Record.IsBefore time) := by
  have hids : ((l.mergeSort (Record.precedes time)).map Record.id).Nodup :=
    ((List.mergeSort_perm l _).map Record.id).nodup_iff.2 hl
  have hdistinct : (l.mergeSort (Record.precedes time)).Pairwise fun a b => a.id ≠ b.id :=
    List.pairwise_map.1 hids
  have hsorted := Record.pairwise_precedes_mergeSort time l
  apply (hsorted.and hdistinct).imp
  rintro a b ⟨hab, hid⟩
  exact Record.isBefore_of_precedes hab hid

/-- The same records are sorted alike, in whatever order they come. -/
theorem mergeSort_eq_of_perm (time : Record → Instant) (h : l.Perm l')
    (hl : (l.map Record.id).Nodup) :
    l.mergeSort (Record.precedes time) = l'.mergeSort (Record.precedes time) := by
  have hperm : (l.mergeSort (Record.precedes time)).Perm (l'.mergeSort (Record.precedes time)) :=
    ((List.mergeSort_perm l _).trans h).trans (List.mergeSort_perm l' _).symm
  apply hperm.eq_of_pairwise _ (Record.pairwise_precedes_mergeSort time l)
    (Record.pairwise_precedes_mergeSort time l')
  intro a b ha hb hab hba
  have ha' : a ∈ l := List.mem_mergeSort.1 ha
  have hb' : b ∈ l := h.mem_iff.2 (List.mem_mergeSort.1 hb)
  have hid : a.id = b.id := Record.id_eq_of_precedes hab hba
  exact List.inj_on_of_nodup_map hl ha' hb' hid

theorem nodup_map_id_filter (s : Store) (p : Record → Bool) :
    ((s.records.filter p).map Record.id).Nodup :=
  s.nodup.sublist (List.filter_sublist.map Record.id)

/-- The records of a batch are due, come in strict order, and are as many as there are and may be;
what is due and not among them comes after them. -/
structure IsBatch (s : Store) (limit : Nat) (now : Instant) (batch : List Record) : Prop where
  due : ∀ r ∈ batch, r ∈ s.records ∧ r.state.isTerminal = false ∧ r.nextAttemptAt ≤ now
  nodup : (batch.map Record.id).Nodup
  ordered : batch.Pairwise (Record.IsBefore Record.stateTimestamp)
  length_eq : batch.length =
    min limit (s.records.countP fun r => !r.state.isTerminal && decide (r.nextAttemptAt ≤ now))
  rest : ∀ r ∈ s.records, r.state.isTerminal = false → r.nextAttemptAt ≤ now → r ∉ batch →
    ∀ q ∈ batch, q.IsBefore Record.stateTimestamp r

/-- A listing has the records that match, in strict order. -/
structure IsListing (s : Store) (wanted : Option State) (listed : List Record) : Prop where
  mem_iff : ∀ r, r ∈ listed ↔ r ∈ s.records ∧ ∀ state ∈ wanted, r.state = state
  ordered : listed.Pairwise (Record.IsBefore Record.createdAt)

theorem isBatch_lease (s : Store) (limit : Nat) (now : Instant) :
    s.IsBatch limit now (s.lease limit now) where
  due := by
    intro r hr
    obtain ⟨hmem, hdue⟩ := mem_of_mem_lease hr
    exact ⟨hmem, Record.isDue_iff.1 hdue⟩
  nodup := s.nodup_lease limit now
  ordered := by
    have hqueue := pairwise_isBefore_mergeSort Record.stateTimestamp
      (s.nodup_map_id_filter (·.isDue now))
    exact hqueue.sublist (List.take_sublist limit _)
  length_eq := by
    rw [length_lease, ← List.countP_eq_length_filter]
    rfl
  rest := by
    intro r hr hopen hdue hout q hq
    obtain ⟨-, hall⟩ := length_lease_of_notMem hr (Record.isDue_iff.2 ⟨hopen, hdue⟩) hout
    obtain ⟨hbefore, hid⟩ := hall q hq
    exact Record.isBefore_of_precedes hbefore hid

theorem isListing_list (s : Store) (wanted : Option State) :
    s.IsListing wanted (s.list wanted) where
  mem_iff := by
    intro r
    rw [list, List.mem_mergeSort, List.mem_filter]
    cases wanted <;> simp
  ordered := pairwise_isBefore_mergeSort Record.createdAt (s.nodup_map_id_filter _)

/-- The latest record of a participant is the last of theirs that is listed. -/
theorem latest?_eq_getLast? (s : Store) (did : Did) :
    s.latest? did = ((s.list none).filter (·.did = did)).getLast? := by
  have hmem : ∀ r, r ∈ (s.list none).filter (·.did = did) ↔ r ∈ s.records ∧ r.did = did := by
    intro r
    rw [List.mem_filter, (s.isListing_list none).mem_iff]
    simp
  have hsorted : ((s.list none).filter (·.did = did)).Pairwise fun a b =>
      a.precedes Record.createdAt b = true :=
    (Record.pairwise_precedes_mergeSort Record.createdAt _).filter _
  cases hlast : ((s.list none).filter (·.did = did)).getLast? with
  | none =>
    rw [List.getLast?_eq_none_iff] at hlast
    apply latest?_eq_none_iff.2
    intro r hr hdid
    have hin := (hmem r).2 ⟨hr, hdid⟩
    rw [hlast] at hin
    cases hin
  | some last =>
    obtain ⟨front, hsplit⟩ := List.getLast?_eq_some_iff.1 hlast
    rw [hsplit] at hmem hsorted
    obtain ⟨hin, hdid⟩ := (hmem last).1 (List.mem_append_right front (List.mem_singleton_self last))
    refine latest?_eq_some_iff.2 ⟨hin, hdid, ?_⟩
    -- All others stand in front of the last one.
    intro r hr hrdid
    rcases List.mem_append.1 ((hmem r).2 ⟨hr, hrdid⟩) with hfront | hself
    · exact (List.pairwise_append.1 hsorted).2.2 r hfront last (List.mem_singleton_self last)
    · rw [List.mem_singleton.1 hself]
      exact Record.precedes_rfl

/-- What a store shows is exact, and the order in which it keeps its records does not show. -/
theorem queries_are_exact {s t : Store} (h : s.records.Perm t.records) :
    (∀ limit now, s.IsBatch limit now (s.lease limit now) ∧
      t.lease limit now = s.lease limit now) ∧
    (∀ wanted, s.IsListing wanted (s.list wanted) ∧ t.list wanted = s.list wanted) ∧
    ∀ did, s.latest? did = ((s.list none).filter (·.did = did)).getLast? ∧
      t.latest? did = s.latest? did := by
  have hlist : ∀ wanted, t.list wanted = s.list wanted := by
    intro wanted
    exact (mergeSort_eq_of_perm Record.createdAt (h.filter _) (s.nodup_map_id_filter _)).symm
  refine ⟨?_, ?_, ?_⟩
  · intro limit now
    have hqueue : t.queue now = s.queue now :=
      (mergeSort_eq_of_perm Record.stateTimestamp (h.filter _) (s.nodup_map_id_filter _)).symm
    refine ⟨s.isBatch_lease limit now, ?_⟩
    rw [lease_eq_take_queue, lease_eq_take_queue, hqueue]
  · intro wanted
    exact ⟨s.isListing_list wanted, hlist wanted⟩
  · intro did
    refine ⟨s.latest?_eq_getLast? did, ?_⟩
    rw [latest?_eq_getLast?, latest?_eq_getLast?, hlist]

/-- Two records are kept in either order, and either way the same one of them makes up a batch. -/
theorem reversed_store_shows_the_same : ∃ s t : Store,
    s.records.map Record.id = [⟨"2"⟩, ⟨"1"⟩] ∧ t.records.map Record.id = [⟨"1"⟩, ⟨"2"⟩] ∧
      s.records.Perm t.records ∧
      (s.lease 1 (Instant.everySecond 1)).length = 1 ∧
      t.lease 1 (Instant.everySecond 1) = s.lease 1 (Instant.everySecond 1) ∧
      t.list none = s.list none ∧
      ∀ r ∈ s.records, t.latest? r.did = s.latest? r.did := by
  let s := Registry.twoApplicants.store
  have hnodup : (s.records.reverse.map Record.id).Nodup := by
    rw [List.map_reverse, List.nodup_reverse]
    exact s.nodup
  let t : Store := ⟨s.records.reverse, hnodup⟩
  have hperm : s.records.Perm t.records := (List.reverse_perm s.records).symm
  obtain ⟨hlease, hlist, hlatest⟩ := queries_are_exact hperm
  obtain ⟨hbatch, hsame⟩ := hlease 1 (Instant.everySecond 1)
  have hdue : s.records.countP (fun r => !r.state.isTerminal &&
      decide (r.nextAttemptAt ≤ Instant.everySecond 1)) = 2 := by decide +kernel
  have hone : (s.lease 1 (Instant.everySecond 1)).length = 1 := by
    rw [hbatch.length_eq, hdue]
    rfl
  have hids : s.records.reverse.map Record.id = [⟨"1"⟩, ⟨"2"⟩] := by decide +kernel
  refine ⟨s, t, by decide +kernel, hids, hperm, hone, hsame, (hlist none).2, ?_⟩
  intro r _
  exact (hlatest r.did).2

end Store

end Onboarding
