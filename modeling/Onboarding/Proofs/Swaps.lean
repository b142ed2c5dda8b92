import Onboarding.Proofs.History
import Onboarding.Proofs.Runs

namespace Onboarding

def Deed.swap? : Deed → Option Attempt
  | .swapped a => some a
  | _ => none

def swapsOn (id : ParticipantId) (deeds : List Deed) : List Attempt :=
  (deeds.filterMap Deed.swap?).filter (·.next.id = id)

variable {id : ParticipantId} {deeds : List Deed} {deed : Deed} {a : Attempt}

theorem swapsOn_append (id : ParticipantId) (before after : List Deed) :
    swapsOn id (before ++ after) = swapsOn id before ++ swapsOn id after := by
  simp [swapsOn]

theorem swapsOn_snoc_of_not_swapped (h : ∀ a, deed ≠ .swapped a) :
    swapsOn id (deeds ++ [deed]) = swapsOn id deeds := by
  cases deed with
  | swapped a => exact absurd rfl (h a)
  | _ => simp [swapsOn, Deed.swap?]

theorem swapsOn_snoc_swapped (h : a.next.id = id) :
    swapsOn id (deeds ++ [.swapped a]) = swapsOn id deeds ++ [a] := by
  simp [swapsOn, Deed.swap?, h]

theorem swapsOn_snoc_swapped_of_ne (h : a.next.id ≠ id) :
    swapsOn id (deeds ++ [.swapped a]) = swapsOn id deeds := by
  simp [swapsOn, Deed.swap?, h]

namespace World

variable {κ : Type} [Collaborators κ] {tuning : Tuning} {k : κ} {w v : World κ}

/-- What the deeds of a run tell about what is stored under a name. -/
structure Accounts (tuning : Tuning) (w : World κ) (deeds : List Deed) (id : ParticipantId) :
    Prop where
  absent : w.registry.store.find? id = none → swapsOn id deeds = []
  history : ∀ r, w.registry.store.find? id = some r → History κ tuning (swapsOn id deeds) r
  creation : ∀ r, w.registry.store.find? id = some r → ∃ before first after,
    deeds = before ++ .created first :: after ∧ first.id = id ∧ swapsOn id before = []

theorem accounts_initial (tuning : Tuning) (k : κ) (id : ParticipantId) :
    (initial k).Accounts tuning [] id := by
  constructor
  · intro _
    rfl
  · intro r hr
    cases hr
  · intro r hr
    cases hr

theorem Accounts.frame (h : w.Accounts tuning deeds id)
    (hd : swapsOn id (deeds ++ [deed]) = swapsOn id deeds)
    (hs : v.registry.store.find? id = w.registry.store.find? id) :
    v.Accounts tuning (deeds ++ [deed]) id := by
  constructor
  · intro hn
    rw [hd]
    exact h.absent (hs ▸ hn)
  · intro r hr
    rw [hd]
    exact h.history r (hs ▸ hr)
  · intro r hr
    obtain ⟨before, first, after, hsplit, hfirst, hbefore⟩ := h.creation r (hs ▸ hr)
    refine ⟨before, first, after ++ [deed], ?_, hfirst, hbefore⟩
    rw [hsplit, List.append_assoc, List.cons_append]

theorem Accounts.create {did : Did} {now : Instant} (h : w.Accounts tuning deeds id)
    (hn : w.registry.store.find? id = none)
    (hs : v.registry.store.find? id = some (.new id did now)) :
    v.Accounts tuning (deeds ++ [.created (.new id did now)]) id := by
  have hnone := h.absent hn
  have hsame : swapsOn id (deeds ++ [.created (.new id did now)]) = [] := by
    rw [swapsOn_snoc_of_not_swapped (by simp), hnone]
  constructor
  · intro hv
    rw [hs] at hv
    cases hv
  · intro r hr
    rw [hs] at hr
    cases hr
    rw [hsame]
    exact .new id did now
  · intro r hr
    exact ⟨deeds, .new id did now, [], rfl, rfl, hnone⟩

/-- A write adds one attempt to the account, made with what was stored. -/
theorem Accounts.swap (h : w.Accounts tuning deeds id) (ha : a.IsGenuine κ tuning)
    (hid : a.next.id = id) (hn : w.registry.store.find? id = some a.read)
    (hs : v.registry.store.find? id = some a.written) :
    v.Accounts tuning (deeds ++ [.swapped a]) id := by
  constructor
  · intro hv
    rw [hs] at hv
    cases hv
  · intro r hr
    rw [hs] at hr
    cases hr
    rw [swapsOn_snoc_swapped hid]
    exact (h.history a.read hn).step ha
  · intro r hr
    obtain ⟨before, first, after, hsplit, hfirst, hbefore⟩ := h.creation a.read hn
    refine ⟨before, first, after ++ [.swapped a], ?_, hfirst, hbefore⟩
    rw [hsplit, List.append_assoc, List.cons_append]

/-- In every run, the attempts that were written under a name are the history of its record. -/
theorem Run.accounts (h : Run tuning (initial k) deeds w) (id : ParticipantId) :
    w.Accounts tuning deeds id := by
  induction h with
  | nil => exact accounts_initial tuning k id
  | @snoc deeds deed u v h hm ih =>
    rcases h.coherent.store_cases hm with
      ⟨hs, -, hd⟩ | ⟨name, did, now, rfl, hn, hs⟩ | ⟨a, ha, rfl, hn, hs⟩
    · exact ih.frame (swapsOn_snoc_of_not_swapped hd) (by rw [hs])
    · by_cases hid : id = name
      · subst hid
        exact ih.create hn (by rw [hs, if_pos rfl])
      · exact ih.frame (swapsOn_snoc_of_not_swapped (by simp)) (by rw [hs, if_neg hid])
    · have hgen := h.coherent.genuine a ha
      by_cases hid : id = a.read.id
      · subst hid
        exact ih.swap hgen hgen.next_id hn (by rw [hs, if_pos rfl])
      · -- A write under another name is not counted under this one.
        have hne : a.next.id ≠ id := by
          rw [hgen.next_id]
          exact Ne.symm hid
        exact ih.frame (swapsOn_snoc_swapped_of_ne hne) (by rw [hs, if_neg hid])

/-- The attempts that were written under the name of a record are its history. -/
theorem Run.history (h : Run tuning (initial k) deeds w) {r : Record}
    (hr : r ∈ w.registry.store.records) : History κ tuning (swapsOn r.id deeds) r :=
  (h.accounts r.id).history r (Store.find?_eq_some_iff.2 ⟨hr, rfl⟩)

/-- No version of a record is replaced twice. -/
theorem Run.countP_swapsOn_le_one (h : Run tuning (initial k) deeds w) (id : ParticipantId)
    (version : Nat) : (swapsOn id deeds).countP (·.read.version = version) ≤ 1 := by
  -- The versions that were replaced are all those below the stored one, once each.
  have hnodup : ((swapsOn id deeds).map (·.read.version)).Nodup := by
    cases hf : w.registry.store.find? id with
    | none =>
      rw [(h.accounts id).absent hf]
      exact List.nodup_nil
    | some r =>
      rw [((h.accounts id).history r hf).map_version]
      exact List.nodup_range
  have hcount := List.nodup_iff_count.1 hnodup version
  rw [List.count_eq_countP, List.countP_map] at hcount
  exact hcount

/-- The version of a record is the number of writes since its creation. -/
theorem Run.version_eq (h : Run tuning (initial k) deeds w) {r : Record}
    (hr : r ∈ w.registry.store.records) : ∃ before first after,
      deeds = before ++ .created first :: after ∧ first.id = r.id ∧
        r.version = (swapsOn r.id after).length := by
  have hf := Store.find?_eq_some_iff.2 ⟨hr, rfl⟩
  obtain ⟨before, first, after, hsplit, hfirst, hbefore⟩ := (h.accounts r.id).creation r hf
  refine ⟨before, first, after, hsplit, hfirst, ?_⟩
  have hafter : swapsOn r.id deeds = swapsOn r.id after := by
    rw [hsplit, swapsOn_append, hbefore]
    rfl
  have hlength := congrArg List.length (h.history hr).map_version
  rw [hafter, List.length_map, List.length_range] at hlength
  exact hlength.symm

theorem Coherent.find?_of_swapped (hw : w.Coherent tuning) (h : Move tuning w (.swapped a) v) :
    w.registry.store.find? a.next.id = some a.read ∧
    v.registry.store.find? a.next.id = some a.written ∧
    ∀ id, id ≠ a.next.id → v.registry.store.find? id = w.registry.store.find? id := by
  rcases hw.store_cases h with
    ⟨-, -, hd⟩ | ⟨name, did, now, hd, -⟩ | ⟨b, hb, hd, hread, hs⟩
  · exact absurd rfl (hd a)
  · cases hd
  · cases hd
    rw [(hw.genuine a hb).next_id]
    refine ⟨hread, by rw [hs, if_pos rfl], ?_⟩
    intro id hid
    rw [hs, if_neg hid]

theorem Coherent.of_swapped (hw : w.Coherent tuning)
    (h : Move tuning w (.swapped a) v) :
    a.IsGenuine κ tuning ∧ a.read ∈ w.registry.store.records ∧
      a.written ∈ v.registry.store.records := by
  obtain ⟨hread, hwritten, -⟩ := hw.find?_of_swapped h
  have hgen : a.IsGenuine κ tuning := by
    cases h with
    | swap ha _ => exact hw.genuine a (by rw [ha]; simp)
  exact ⟨hgen, (Store.find?_eq_some_iff.1 hread).1, (Store.find?_eq_some_iff.1 hwritten).1⟩

/-- A write that is lost leaves the store as it is, and its worker is told. -/
theorem Move.eq_of_lost {error : StoreError} (h : Move tuning w (.lost a error) v) :
    v.registry.store = w.registry.store ∧
    ((∃ expected found, error = .conflict a.next.id expected found ∧
        (w.registry.commit a.read a.next a.route.step a.outcome).1 = .ok .conflict) ∨
      (error = .notFound a.next.id ∧
        (w.registry.commit a.read a.next a.route.step a.outcome).1 = .ok .skipped)) := by
  cases h with
  | lose _ h => exact Registry.commit_of_compareAndSwap_eq_error _ _ h

/-- No update is lost, and none is made twice. -/
theorem Run.updates_are_kept (h : Run tuning (initial k) deeds w) :
    (∀ id version, (swapsOn id deeds).countP (·.read.version = version) ≤ 1) ∧
    (∀ a v, Move tuning w (.swapped a) v →
      w.registry.store.find? a.next.id = some a.read ∧
      v.registry.store.find? a.next.id = some a.written ∧
      ∀ id, id ≠ a.next.id → v.registry.store.find? id = w.registry.store.find? id) ∧
    (∀ a error v, Move tuning w (.lost a error) v → v.registry.store = w.registry.store ∧
      ((∃ expected found, error = .conflict a.next.id expected found ∧
          (w.registry.commit a.read a.next a.route.step a.outcome).1 = .ok .conflict) ∨
        (error = .notFound a.next.id ∧
          (w.registry.commit a.read a.next a.route.step a.outcome).1 = .ok .skipped))) ∧
    (∀ r ∈ w.registry.store.records, ∃ before first after,
      deeds = before ++ .created first :: after ∧ first.id = r.id ∧
        r.version = (swapsOn r.id after).length) := by
  refine ⟨h.countP_swapsOn_le_one, ?_, ?_, ?_⟩
  · intro a v hm
    exact h.coherent.find?_of_swapped hm
  · intro a error v hm
    exact hm.eq_of_lost
  · intro r hr
    exact h.version_eq hr

theorem onboarded_record_version : ∃ deeds w r,
    Run {} (initial (⟨.zero⟩ : Bureau .welcome)) deeds w ∧ r ∈ w.registry.store.records ∧
      r.state = .onboarded ∧ ∃ before first after,
        deeds = before ++ .created first :: after ∧ first.id = r.id ∧
          r.version = (swapsOn r.id after).length := by
  obtain ⟨deeds, w, hrun, r, hr, hs⟩ := exists_run_onboarded
  exact ⟨deeds, w, r, hrun, hr, hs, hrun.updates_are_kept.2.2.2 r hr⟩

end World

end Onboarding
