import Mathlib.Data.List.Nodup
import Onboarding.Store

namespace Onboarding.Store

/-- Under each name at most one record is stored. -/
theorem eq_of_mem_of_id_eq {s : Store} {a b : Record} (ha : a ∈ s.records) (hb : b ∈ s.records)
    (h : a.id = b.id) : a = b :=
  List.inj_on_of_nodup_map s.nodup ha hb h

/-- The record that is found under a name is the one in the store that has it. -/
theorem find?_eq_some_iff {s : Store} {id : ParticipantId} {r : Record} :
    s.find? id = some r ↔ r ∈ s.records ∧ r.id = id := by
  refine ⟨fun h => ⟨List.mem_of_find?_eq_some h, by simpa using List.find?_some h⟩, ?_⟩
  rintro ⟨hr, rfl⟩
  obtain ⟨q, hq⟩ : ∃ q, s.find? r.id = some q := by
    refine Option.isSome_iff_exists.1 ?_
    exact List.find?_isSome.2 ⟨r, hr, by simp⟩
  have hid : q.id = r.id := by simpa using List.find?_some hq
  rw [hq, eq_of_mem_of_id_eq (List.mem_of_find?_eq_some hq) hr hid]

/-- No record is found under a name that no record has. -/
theorem find?_eq_none_iff {s : Store} {id : ParticipantId} :
    s.find? id = none ↔ ∀ r ∈ s.records, r.id ≠ id := by
  simp [find?]

/-- A record is got exactly if it is found. -/
theorem get_eq_ok_iff {s : Store} {id : ParticipantId} {r : Record} :
    s.get id = .ok r ↔ s.find? id = some r := by
  rw [get]
  cases s.find? id <;> simp

/-- A record is created exactly if none is found under its name. -/
theorem create_eq_ok_iff {s t : Store} {r : Record} :
    s.create r = .ok t ↔ s.find? r.id = none ∧ t.records = r :: s.records := by
  rw [find?_eq_none_iff]
  unfold create
  split
  · next h =>
    obtain ⟨q, hq, hid⟩ := List.mem_map.1 h
    simp only [reduceCtorEq, false_iff, not_and]
    intro hn
    exact absurd hid (hn q hq)
  · next h =>
    rw [Except.ok.injEq]
    constructor
    · rintro rfl
      exact ⟨fun q hq hid => h (List.mem_map.2 ⟨q, hq, hid⟩), rfl⟩
    · rintro ⟨-, ht⟩
      cases t
      cases ht
      rfl

theorem exists_create_eq_ok {s : Store} {r : Record} (h : s.find? r.id = none) :
    ∃ t, s.create r = .ok t ∧ t.records = r :: s.records := by
  have hnew : r.id ∉ s.records.map Record.id := by
    intro hmem
    obtain ⟨q, hq, hid⟩ := List.mem_map.1 hmem
    exact find?_eq_none_iff.1 h q hq hid
  exact ⟨_, dif_neg hnew, rfl⟩

/-- A new record is found under its name, and all others as before. -/
theorem find?_of_create_eq_ok {s t : Store} {r : Record} (h : s.create r = .ok t)
    (id : ParticipantId) : t.find? id = if id = r.id then some r else s.find? id := by
  rw [find?, (create_eq_ok_iff.1 h).2, List.find?_cons]
  by_cases hid : r.id = id
  · simp [hid]
  · simp [hid, Ne.symm hid, find?]

/-- A replacement is found in place of the record of its name, if there was one. -/
theorem find?_replace (s : Store) (r : Record) (id : ParticipantId) :
    (s.replace r).find? id =
      if id = r.id then (s.find? id).map fun _ => r else s.find? id := by
  have key : ∀ l : List Record,
      (l.map fun old => if old.id = r.id then r else old).find? (·.id = id) =
        if id = r.id then (l.find? (·.id = id)).map fun _ => r else l.find? (·.id = id) := by
    intro l
    induction l with
    | nil => simp
    | cons q rest ih =>
      rw [List.map_cons, List.find?_cons, List.find?_cons]
      by_cases hq : q.id = r.id
      · by_cases hid : id = r.id
        · simp [hq, hid]
        · simpa [hq, Ne.symm hid, hid] using ih
      · by_cases hid : q.id = id
        · simp [hid, hid ▸ hq]
        · simpa [hq, hid] using ih
  exact key s.records

/-- A swap succeeds exactly if a record with the expected version is stored under the name. -/
theorem compareAndSwap_eq_ok_iff {s t : Store} {r next : Record} {expected : Nat} :
    s.compareAndSwap r expected = .ok (next, t) ↔
      (∃ old, s.find? r.id = some old ∧ old.version = expected) ∧
        next = { r with version := expected + 1 } ∧ t = s.replace next := by
  unfold compareAndSwap
  cases hf : s.find? r.id with
  | none => simp
  | some old =>
    by_cases hv : old.version = expected
    · simp only [hv, if_true, Except.ok.injEq, Prod.mk.injEq, Option.some.injEq,
        exists_eq_left', true_and]
      constructor
      · rintro ⟨rfl, rfl⟩
        exact ⟨rfl, rfl⟩
      · rintro ⟨rfl, rfl⟩
        exact ⟨rfl, rfl⟩
    · simp [hv]

theorem mem_of_mem_lease {s : Store} {limit : Nat} {now : Instant} {r : Record}
    (h : r ∈ s.lease limit now) : r ∈ s.records ∧ r.isDue now = true :=
  List.mem_filter.1 (List.mem_mergeSort.1 (List.mem_of_mem_take h))

/-- As many records are leased as are due and may be. -/
theorem length_lease (s : Store) (limit : Nat) (now : Instant) :
    (s.lease limit now).length = min limit (s.records.filter (·.isDue now)).length := by
  rw [lease, List.length_take, List.length_mergeSort]

theorem length_lease_le (s : Store) (limit : Nat) (now : Instant) :
    (s.lease limit now).length ≤ limit := by
  rw [length_lease]
  exact Nat.min_le_left _ _

theorem nodup_lease (s : Store) (limit : Nat) (now : Instant) :
    ((s.lease limit now).map Record.id).Nodup := by
  have hfilter : ((s.records.filter (·.isDue now)).map Record.id).Nodup :=
    s.nodup.sublist (List.filter_sublist.map Record.id)
  have hperm := (List.mergeSort_perm (s.records.filter (·.isDue now))
    (Record.precedes Record.stateTimestamp)).map Record.id
  exact (hperm.nodup_iff.2 hfilter).sublist ((List.take_sublist _ _).map Record.id)

end Onboarding.Store
