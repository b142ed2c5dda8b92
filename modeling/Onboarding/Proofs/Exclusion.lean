import Onboarding.Proofs.Phases
import Onboarding.Proofs.Precedence
import Onboarding.Proofs.Swaps

/-!
The registrations of one participant. A submission looks for an earlier registration first and
creates its record later, and the store does not look again.
-/

namespace Onboarding

def StampedInTurn (deeds : List Deed) : Prop :=
  (deeds.filterMap Deed.accepted?).Pairwise fun r q => r.did = q.did → r.createdAt < q.createdAt

/-- Another record of the participant was created after a submission had looked for one, and before
its own record was. -/
def Overlapped (did : Did) (deeds : List Deed) : Prop :=
  ∃ r q : Record, r.did = did ∧ q.did = did ∧
    [.accepted r, .created q, .created r].Sublist deeds

theorem StampedInTurn.of_append {deeds later : List Deed} (h : StampedInTurn (deeds ++ later)) :
    StampedInTurn deeds := by
  rw [StampedInTurn, List.filterMap_append] at h
  exact (List.pairwise_append.1 h).1

theorem StampedInTurn.lt {deeds : List Deed} {r q : Record}
    (h : StampedInTurn (deeds ++ [.accepted q])) (hr : .accepted r ∈ deeds) (hdid : r.did = q.did) :
    r.createdAt < q.createdAt :=
  rel_of_pairwise_filterMap_snoc h hr rfl rfl hdid

theorem not_overlapped_of_append {did : Did} {deeds later : List Deed}
    (h : ¬Overlapped did (deeds ++ later)) : ¬Overlapped did deeds := by
  rintro ⟨r, q, hr, hq, hsub⟩
  exact h ⟨r, q, hr, hq, hsub.trans (List.sublist_append_left deeds later)⟩

namespace Store

def Lined (s : Store) (did : Did) : Prop :=
  -- All but the last of the records have failed.
  ∀ r ∈ s.records, ∀ q ∈ s.records, r.did = did → q.did = did →
    r = q ∨ r.state.isFailure = true ∧ r.createdAt < q.createdAt ∨
      q.state.isFailure = true ∧ q.createdAt < r.createdAt

variable {s t : Store} {did : Did} {q last : Record}

/-- What is found is the last in line. -/
theorem Lined.of_latest? (h : s.Lined did) (hl : s.latest? did = some last) :
    ∀ r ∈ s.records, r.did = did →
      r = last ∨ r.state.isFailure = true ∧ r.createdAt < last.createdAt := by
  intro r hr hdid
  obtain ⟨hmem, hlast, hall⟩ := latest?_spec hl
  have hle := Record.time_le_of_precedes (hall r hr hdid)
  rcases h r hr last hmem hdid hlast with heq | hbefore | ⟨-, hlt⟩
  · exact Or.inl heq
  · exact Or.inr hbefore
  · exact absurd hlt (not_lt_of_ge hle)

/-- If the last registration has failed, all have. -/
theorem Lined.isFailure_of_latest? (h : s.Lined did)
    (hl : ∀ last, s.latest? did = some last → last.state.isFailure = true) :
    ∀ r ∈ s.records, r.did = did → r.state.isFailure = true := by
  intro r hr hdid
  cases hlast : s.latest? did with
  | none => exact absurd hdid (latest?_eq_none_iff.1 hlast r hr)
  | some last =>
    rcases h.of_latest? hlast r hr hdid with rfl | ⟨hf, -⟩
    · exact hl r hlast
    · exact hf

/-- A new record joins the line behind records that have failed. -/
theorem Lined.cons (h : s.Lined did) (ht : t.records = q :: s.records)
    (hq : q.did = did → ∀ r ∈ s.records, r.did = did →
      r.state.isFailure = true ∧ r.createdAt < q.createdAt) : t.Lined did := by
  intro r hr p hp hrdid hpdid
  rw [ht] at hr hp
  rcases List.mem_cons.1 hr with rfl | hr' <;> rcases List.mem_cons.1 hp with rfl | hp'
  · exact Or.inl rfl
  · exact Or.inr (Or.inr (hq hrdid p hp' hpdid))
  · exact Or.inr (Or.inl (hq hpdid r hr' hrdid))
  · exact h r hr' p hp' hrdid hpdid

end Store

namespace World

variable {κ : Type} {w v : World κ} {deeds : List Deed} {deed : Deed} {did : Did}

/-- What is known of the registrations of a participant, unless submissions have overlapped. All but
the last have failed; and nobody is about to create a record beside one that has not. -/
structure Exclusive (w : World κ) (deeds : List Deed) (did : Did) : Prop where
  stamped : ∀ r ∈ w.registry.store.records, r.did = did →
    ∃ q, .accepted q ∈ deeds ∧ q.did = did ∧ q.createdAt = r.createdAt
  pending : ∀ q ∈ w.submissions, .accepted q ∈ deeds
  clear : ∀ q ∈ w.submissions, q.did = did →
    (∀ r ∈ w.registry.store.records, r.did = did →
      r.state.isFailure = true ∧ r.createdAt < q.createdAt) ∨
    ∃ p : Record, p.did = did ∧ [.accepted q, .created p].Sublist deeds
  lined : w.registry.store.Lined did

theorem exclusive_initial (k : κ) (did : Did) : (initial k).Exclusive [] did := by
  constructor <;> simp [initial, Store.empty, Store.Lined]

/-- What neither writes to the store nor accepts a submission changes nothing. -/
theorem Exclusive.idle (he : w.Exclusive deeds did)
    (hstore : v.registry.store = w.registry.store)
    (hsub : ∀ q ∈ v.submissions, q ∈ w.submissions) : v.Exclusive (deeds ++ [deed]) did := by
  constructor
  · intro r hr hdid
    rw [hstore] at hr
    obtain ⟨q, hq, hqdid, hqat⟩ := he.stamped r hr hdid
    exact ⟨q, List.mem_append_left _ hq, hqdid, hqat⟩
  · intro q hq
    exact List.mem_append_left _ (he.pending q (hsub q hq))
  · intro q hq hdid
    rw [hstore]
    refine (he.clear q (hsub q hq) hdid).imp_right ?_
    rintro ⟨p, hp, hlist⟩
    exact ⟨p, hp, hlist.trans (List.sublist_append_left _ _)⟩
  · rw [hstore]
    exact he.lined

variable [Collaborators κ] {tuning : Tuning} {k : κ}

theorem Move.store_of_quiet (h : Move tuning w deed v) (hc : ∀ r, deed ≠ .created r)
    (hs : ∀ a, deed ≠ .swapped a) : v.registry.store = w.registry.store := by
  rcases h.store_cases with ⟨hstore, -⟩ | ⟨r, -, hdeed, -⟩ | ⟨a, -, hdeed, -⟩
  · exact hstore
  · exact absurd hdeed (hc r)
  · exact absurd hdeed (hs a)

theorem Move.of_created {q : Record} (h : Move tuning w (.created q) v) :
    q ∈ w.submissions ∧ v.registry.store.records = q :: w.registry.store.records := by
  rcases h.store_cases with ⟨-, hc, -⟩ | ⟨r, hr, hdeed, hcreate⟩ | ⟨a, -, hdeed, -⟩
  · exact absurd rfl (hc q)
  · cases hdeed
    exact ⟨hr, (Store.create_eq_ok_iff.1 hcreate).2⟩
  · cases hdeed

theorem Move.mem_of_swapped {a : Attempt} (h : Move tuning w (.swapped a) v) {r : Record}
    (hr : r ∈ v.registry.store.records) : r = a.written ∨ r ∈ w.registry.store.records := by
  rcases h.store_cases with ⟨-, -, hs⟩ | ⟨q, -, hdeed, -⟩ | ⟨b, -, hdeed, stored, hswap⟩
  · exact absurd rfl (hs a)
  · cases hdeed
  · cases hdeed
    obtain ⟨-, rfl, hstore⟩ := Store.compareAndSwap_eq_ok_iff.1 hswap
    rw [hstore] at hr
    obtain ⟨old, hold, rfl⟩ := List.mem_map.1 hr
    split_ifs
    · exact Or.inl rfl
    · exact Or.inr hold

/-- What is replaced has not ended. -/
theorem Coherent.not_isFailure_of_swapped (hw : w.Coherent tuning) {a : Attempt}
    (h : Move tuning w (.swapped a) v) : ¬a.read.state.isFailure = true := by
  intro hf
  have ht := (hw.of_swapped h).1.leadsTo.not_isTerminal
  rw [State.phase?_eq_none_iff.1 (State.phase?_of_isFailure hf)] at ht
  cases ht

/-- A record that is replaced is the last in line, and keeps its place, since its participant and
its creation stay. -/
theorem Coherent.lined_of_swapped (hw : w.Coherent tuning) {a : Attempt}
    (h : Move tuning w (.swapped a) v) (hl : w.registry.store.Lined did) :
    v.registry.store.Lined did := by
  obtain ⟨hgen, hread, hwrite⟩ := hw.of_swapped h
  have hlead := hgen.leadsTo
  -- What was written takes the place of a record that had not failed, and so was the last.
  have hwritten : ∀ q ∈ v.registry.store.records, q.did = did → a.written.did = did →
      a.written = q ∨ q.state.isFailure = true ∧ q.createdAt < a.written.createdAt := by
    intro q hq hqdid hadid
    rcases h.mem_of_swapped hq with rfl | hold
    · exact Or.inl rfl
    · rw [hlead.did] at hadid
      rw [hlead.createdAt]
      rcases hl a.read hread q hold hadid hqdid with heq | ⟨hf, -⟩ | hlast
      · exact Or.inl (Store.eq_of_mem_of_id_eq hwrite hq (by rw [hlead.id, heq]))
      · exact absurd hf (hw.not_isFailure_of_swapped h)
      · exact Or.inr hlast
  intro r hr q hq hrdid hqdid
  rcases h.mem_of_swapped hr with rfl | hr'
  · exact (hwritten q hq hqdid hrdid).imp_right Or.inr
  · rcases h.mem_of_swapped hq with rfl | hq'
    · rcases hwritten r hr hrdid hqdid with heq | hlast
      · exact Or.inl heq.symm
      · exact Or.inr (Or.inl hlast)
    · exact hl r hr' q hq' hrdid hqdid

/-- If all registrations of a participant have failed, none of them is replaced. -/
theorem Coherent.mem_of_swapped (hw : w.Coherent tuning) {a : Attempt}
    (h : Move tuning w (.swapped a) v)
    (hall : ∀ r ∈ w.registry.store.records, r.did = did → r.state.isFailure = true) {r : Record}
    (hr : r ∈ v.registry.store.records) (hdid : r.did = did) :
    r ∈ w.registry.store.records := by
  rcases h.mem_of_swapped hr with rfl | hr
  · obtain ⟨hgen, hread, -⟩ := hw.of_swapped h
    rw [hgen.leadsTo.did] at hdid
    exact absurd (hall a.read hread hdid) (hw.not_isFailure_of_swapped h)
  · exact hr

/-- A submission is accepted only if the latest registration that it finds has failed. -/
theorem Move.vet_of_accepted {q : Record} (h : Move tuning w (.accepted q) v) :
    v.registry.store = w.registry.store ∧
      ∀ last, w.registry.store.latest? q.did = some last → last.state.isFailure = true := by
  refine ⟨h.store_of_quiet (by simp) (by simp), ?_⟩
  cases h with
  | accept h =>
    obtain ⟨did, -, rfl, hlast⟩ := Registry.eq_new_of_vet_eq_ok h
    exact hlast

/-- A submission that is accepted finds none but failed registrations before it. -/
theorem Exclusive.accept {q : Record} (he : w.Exclusive deeds did)
    (h : Move tuning w (.accepted q) v) (hstamped : StampedInTurn (deeds ++ [.accepted q])) :
    v.Exclusive (deeds ++ [.accepted q]) did := by
  obtain ⟨hstore, hlast⟩ := h.vet_of_accepted
  have hidle : ({ v with submissions := w.submissions } : World κ).Exclusive
      (deeds ++ [.accepted q]) did := he.idle hstore fun _ hp => hp
  have hsub : ∀ p ∈ v.submissions, p ∈ w.submissions ∨ p = q := by
    intro p hp
    rcases h.submissions_cases hp with hp | ⟨hdeed, -⟩
    · exact Or.inl hp
    · cases hdeed
      exact Or.inr rfl
  refine ⟨hidle.stamped, ?_, ?_, hidle.lined⟩
  · intro p hp
    rcases hsub p hp with hp | rfl
    · exact hidle.pending p hp
    · simp
  · intro p hp hdid
    rcases hsub p hp with hp | rfl
    · exact hidle.clear p hp hdid
    · -- All that there is has failed, and was submitted before.
      left
      rw [hstore]
      intro r hr hrdid
      subst hdid
      obtain ⟨x, hx, hxdid, hxat⟩ := he.stamped r hr hrdid
      refine ⟨he.lined.isFailure_of_latest? hlast r hr hrdid, ?_⟩
      rw [← hxat]
      exact hstamped.lt hx hxdid

/-- A record that is created, with no other since its submission looked, is the only one that has
not failed. -/
theorem Exclusive.create {q : Record} (he : w.Exclusive deeds did)
    (h : Move tuning w (.created q) v) (hclear : ¬Overlapped did (deeds ++ [.created q])) :
    v.Exclusive (deeds ++ [.created q]) did := by
  obtain ⟨hq, hrecords⟩ := h.of_created
  have hsub : ∀ p ∈ v.submissions, p ∈ w.submissions := by
    intro p hp
    rcases h.submissions_cases hp with hp | ⟨hdeed, -⟩
    · exact hp
    · cases hdeed
  have hothers : q.did = did → ∀ r ∈ w.registry.store.records, r.did = did →
      r.state.isFailure = true ∧ r.createdAt < q.createdAt := by
    intro hdid
    rcases he.clear q hq hdid with hall | ⟨p, hp, hlist⟩
    · exact hall
    · exact absurd ⟨q, p, hdid, hp, hlist.append (.refl [Deed.created q])⟩ hclear
  constructor
  · intro r hr hdid
    rw [hrecords] at hr
    rcases List.mem_cons.1 hr with rfl | hr
    · exact ⟨r, List.mem_append_left _ (he.pending r hq), hdid, rfl⟩
    · obtain ⟨x, hx, hxdid, hxat⟩ := he.stamped r hr hdid
      exact ⟨x, List.mem_append_left _ hx, hxdid, hxat⟩
  · intro p hp
    exact List.mem_append_left _ (he.pending p (hsub p hp))
  · intro p hp hdid
    by_cases hqdid : q.did = did
    · -- Whoever is still to create a record has been overtaken.
      refine Or.inr ⟨q, hqdid, ?_⟩
      exact (List.singleton_sublist.2 (he.pending p (hsub p hp))).append (List.Sublist.refl [_])
    · rcases he.clear p (hsub p hp) hdid with hall | ⟨x, hx, hlist⟩
      · left
        intro r hr hrdid
        rw [hrecords] at hr
        rcases List.mem_cons.1 hr with rfl | hr
        · exact absurd hrdid hqdid
        · exact hall r hr hrdid
      · exact Or.inr ⟨x, hx, hlist.trans (List.sublist_append_left _ _)⟩
  · exact he.lined.cons hrecords hothers

theorem Exclusive.swap {a : Attempt} (hw : w.Coherent tuning) (he : w.Exclusive deeds did)
    (h : Move tuning w (.swapped a) v) : v.Exclusive (deeds ++ [.swapped a]) did := by
  obtain ⟨hgen, hread, -⟩ := hw.of_swapped h
  have hlead := hgen.leadsTo
  have hsub : ∀ q ∈ v.submissions, q ∈ w.submissions := by
    intro q hq
    rcases h.submissions_cases hq with hq | ⟨hdeed, -⟩
    · exact hq
    · cases hdeed
  -- An attempt changes neither the participant of its record nor the time of its creation.
  constructor
  · intro r hr hdid
    rcases h.mem_of_swapped hr with rfl | hr
    · rw [hlead.did] at hdid
      obtain ⟨q, hq, hqdid, hqat⟩ := he.stamped a.read hread hdid
      exact ⟨q, List.mem_append_left _ hq, hqdid, by rw [hqat, hlead.createdAt]⟩
    · obtain ⟨q, hq, hqdid, hqat⟩ := he.stamped r hr hdid
      exact ⟨q, List.mem_append_left _ hq, hqdid, hqat⟩
  · intro q hq
    exact List.mem_append_left _ (he.pending q (hsub q hq))
  · intro q hq hdid
    rcases he.clear q (hsub q hq) hdid with hall | ⟨p, hp, hlist⟩
    · left
      intro r hr hrdid
      have hfailed : ∀ p ∈ w.registry.store.records, p.did = did → p.state.isFailure = true :=
        fun p hp hpdid => (hall p hp hpdid).1
      exact hall r (hw.mem_of_swapped h hfailed hr hrdid) hrdid
    · exact Or.inr ⟨p, hp, hlist.trans (List.sublist_append_left _ _)⟩
  · exact hw.lined_of_swapped h he.lined

/-- All moves keep what is known of the registrations of a participant, unless submissions overlap.
-/
theorem Exclusive.move (hw : w.Coherent tuning) (he : w.Exclusive deeds did)
    (h : Move tuning w deed v) (hstamped : StampedInTurn (deeds ++ [deed]))
    (hclear : ¬Overlapped did (deeds ++ [deed])) : v.Exclusive (deeds ++ [deed]) did := by
  have hquiet (hc : ∀ r, deed ≠ .created r) (hs : ∀ a, deed ≠ .swapped a)
      (ha : ∀ r, deed ≠ .accepted r) : v.Exclusive (deeds ++ [deed]) did := by
    refine he.idle (h.store_of_quiet hc hs) ?_
    intro q hq
    exact (h.submissions_cases hq).resolve_right fun hnew => ha q hnew.1
  cases deed with
  | accepted q => exact he.accept h hstamped
  | created q => exact he.create h hclear
  | swapped a => exact he.swap hw h
  | _ => exact hquiet (by simp) (by simp) (by simp)

/-- In every run in which no submissions of a participant overlap, all of its registrations but the
last have failed. -/
theorem Run.exclusive (h : Run tuning (initial k) deeds w) (hstamped : StampedInTurn deeds)
    (hclear : ¬Overlapped did deeds) : w.Exclusive deeds did := by
  induction h with
  | nil => exact exclusive_initial k did
  | snoc h hm ih =>
    exact (ih hstamped.of_append (not_overlapped_of_append hclear)).move h.coherent hm hstamped
      hclear

/-- A participant has at most one registration that has not failed, unless one of its records was
created between another submission of it and the creation of that one's record. -/
theorem Run.live_registration_is_unique (h : Run tuning (initial k) deeds w)
    (hstamped : StampedInTurn deeds) {r q : Record} (hr : r ∈ w.registry.store.records)
    (hq : q ∈ w.registry.store.records) (hdid : r.did = q.did)
    (hrlive : r.state.isFailure = false) (hqlive : q.state.isFailure = false) :
    r = q ∨ Overlapped r.did deeds := by
  by_cases hclear : Overlapped r.did deeds
  · exact Or.inr hclear
  · rcases (h.exclusive hstamped hclear).lined r hr q hq rfl hdid.symm with
      heq | ⟨hf, -⟩ | ⟨hf, -⟩
    · exact Or.inl heq
    · rw [hrlive] at hf
      cases hf
    · rw [hqlive] at hf
      cases hf

/-- Of two submissions, both look for an earlier registration before either creates its own. -/
theorem exists_run_overlapped : ∃ (did : Did) (deeds : List Deed) (w : World (Bureau .welcome)),
    did.text = "did:web:participant" ∧ Run {} (initial ⟨.zero⟩) deeds w ∧ StampedInTurn deeds ∧
      w.registry.store.records =
        [.new ⟨"2"⟩ did (Instant.epoch.after (.ofSeconds 1)), .new ⟨"1"⟩ did .epoch] := by
  obtain ⟨did, hd⟩ : ∃ did, Did.parse "did:web:participant" = .ok did := by
    have hok : (Did.parse "did:web:participant").isOk = true := by decide +kernel
    cases hp : Did.parse "did:web:participant" with
    | error e =>
      rw [hp] at hok
      cases hok
    | ok did => exact ⟨did, rfl⟩
  have htext : ((Did.parse "did:web:participant").toOption.map Did.text) =
      some "did:web:participant" := by decide +kernel
  rw [hd] at htext
  let r : Record := .new ⟨"1"⟩ did .epoch
  let q : Record := .new ⟨"2"⟩ did (Instant.epoch.after (.ofSeconds 1))
  let start : World (Bureau .welcome) := initial ⟨.zero⟩
  let looked : World (Bureau .welcome) := { start with submissions := [q, r] }
  have hfirst : Run {} start [.accepted r] _ :=
    .single (.accept (Registry.vet_of_parse_eq_ok hd start.registry ⟨"1"⟩ .epoch))
  have hlooked : Run {} start [.accepted r, .accepted q] looked :=
    hfirst.snoc (.accept (Registry.vet_of_parse_eq_ok hd start.registry ⟨"2"⟩
      (Instant.epoch.after (.ofSeconds 1))))
  obtain ⟨one, hone, hones⟩ := @Store.exists_create_eq_ok start.registry.store r rfl
  let created : World (Bureau .welcome) :=
    { looked with registry := (looked.registry.register r).2, submissions := [q] }
  have hcreated : Run {} start [.accepted r, .accepted q, .created r] created :=
    hlooked.snoc (@Move.create _ _ {} looked [q] [] r one rfl hone)
  have hstore : created.registry.store = one := (Registry.register_of_create_eq_ok hone).2
  have hnew : created.registry.store.find? q.id = none := by
    rw [hstore, Store.find?_eq_none_iff, hones]
    simp [start, initial, Store.empty, r, q, Record.new]
  obtain ⟨both, hboth, hboths⟩ := Store.exists_create_eq_ok hnew
  have hend := hcreated.snoc (@Move.create _ _ {} created [] [] q both rfl hboth)
  refine ⟨did, _, _, Option.some.inj htext, hend, ?_, ?_⟩
  · have hlt : Instant.epoch < Instant.epoch.after (.ofSeconds 1) := by decide +kernel
    change List.Pairwise _ [r, q]
    exact List.pairwise_pair.2 fun _ => hlt
  · rw [(Registry.register_of_create_eq_ok hboth).2, hboths, hstore, hones]
    rfl

theorem live_registrations_overlapped : ∃ (deeds : List Deed) (w : World (Bureau .welcome))
    (r q : Record), Run {} (initial ⟨.zero⟩) deeds w ∧ StampedInTurn deeds ∧
      r ∈ w.registry.store.records ∧ q ∈ w.registry.store.records ∧ r.did = q.did ∧ r ≠ q ∧
      r.state.isFailure = false ∧ q.state.isFailure = false ∧ Overlapped r.did deeds := by
  obtain ⟨did, deeds, w, -, hrun, hstamped, hrecords⟩ := exists_run_overlapped
  let r : Record := .new ⟨"1"⟩ did .epoch
  let q : Record := .new ⟨"2"⟩ did (Instant.epoch.after (.ofSeconds 1))
  have hr : r ∈ w.registry.store.records := by
    rw [hrecords]
    exact List.mem_cons_of_mem _ (List.mem_singleton_self r)
  have hq : q ∈ w.registry.store.records := by
    rw [hrecords]
    exact List.mem_cons_self
  have hne : r ≠ q := by
    intro h
    have hid := congrArg Record.id h
    simp [r, q, Record.new] at hid
  have hover := hrun.live_registration_is_unique hstamped hr hq rfl rfl rfl
  exact ⟨deeds, w, r, q, hrun, hstamped, hr, hq, rfl, hne, rfl, rfl, hover.resolve_left hne⟩

/-- Two requests of one participant may both be granted, and then both registrations are live. -/
theorem live_registration_is_not_unique : ∃ (deeds : List Deed) (w : World (Bureau .welcome))
    (r q : Record), Run {} (initial ⟨.zero⟩) deeds w ∧ StampedInTurn deeds ∧
      w.registry.store.records = [q, r] ∧ r.did.text = "did:web:participant" ∧ q.did = r.did ∧
      r.id = ⟨"1"⟩ ∧ q.id = ⟨"2"⟩ ∧ r.state = .onboardingInitiated ∧
      q.state = .onboardingInitiated := by
  obtain ⟨did, deeds, w, htext, hrun, hstamped, hrecords⟩ := exists_run_overlapped
  exact ⟨deeds, w, _, _, hrun, hstamped, hrecords, htext, rfl, rfl, rfl, rfl, rfl⟩

end World

end Onboarding
