import Onboarding.Proofs.Admission
import Onboarding.Proofs.Precedence
import Onboarding.Proofs.Reference

/-!
When a submission can be seen. A participant's registration is found by the time of its creation,
and among equal times by its name, and not by the order of the submissions.
-/

namespace Onboarding.Registry

variable {κ : Type} {reg after : Registry Store κ} {raw : String} {id : ParticipantId}
  {now : Instant} {r : Record}

/-- What is accepted is put before the other records. -/
theorem records_of_submit_eq_ok (h : reg.submit raw id now = (.ok r, after)) :
    ∃ did, Did.parse raw = .ok did ∧ r = .new id did now ∧ reg.store.find? id = none ∧
      after.store.records = r :: reg.store.records ∧
      ∀ last, reg.store.latest? did = some last → last.state.isFailure = true := by
  rw [submit_eq] at h
  -- The admission leaves the store alone, so that the creation finds it as it was.
  cases hv : reg.vet raw id now with
  | mk result vetted =>
    rw [hv] at h
    cases result with
    | error e => cases h
    | ok q =>
      simp only at h
      obtain ⟨did, hparse, hq, hfailed⟩ := eq_new_of_vet_eq_ok hv
      have hstore := vet_store hv
      cases hc : vetted.store.create q with
      | error e =>
        have hrefused := (register_of_create_eq_error hc).1
        rw [h] at hrefused
        cases hrefused
      | ok s =>
        obtain ⟨hok, hafter⟩ := register_of_create_eq_ok hc
        rw [h] at hok hafter
        cases hok
        obtain ⟨hnew, hrecords⟩ := Store.create_eq_ok_iff.1 hc
        rw [hstore] at hnew hrecords
        subst hq
        exact ⟨did, hparse, rfl, hnew, by rw [← hrecords, ← hafter], hfailed⟩

/-- A submission of a participant whose latest registration goes on is told so. -/
theorem submit_of_latest? {did : Did} {last : Record} (hlast : reg.store.latest? did = some last)
    (hlive : last.state.isFailure = false) (hparse : Did.parse raw = .ok did) :
    reg.submit raw id now = (.error (.alreadyRegistered did last.id last.state), reg) := by
  rw [submit_eq, vet_of_parse_eq_ok hparse, hlast]
  simp only [hlive, Bool.false_eq_true, if_false]

/-- A submission under a new name is accepted if the latest registration has failed. -/
theorem submit_of_latest?_of_isFailure {did : Did} {last : Record}
    (hlast : reg.store.latest? did = some last) (hfailed : last.state.isFailure = true)
    (hparse : Did.parse raw = .ok did) (hnew : reg.store.find? id = none) :
    (reg.submit raw id now).1 = .ok (.new id did now) := by
  rw [submit_eq, vet_of_parse_eq_ok hparse, hlast]
  simp only [hfailed, if_true]
  obtain ⟨s, hc, -⟩ := @Store.exists_create_eq_ok reg.store (.new id did now) hnew
  exact (register_of_create_eq_ok hc).1

/-- A submission that was accepted is stored. It is found as the latest of its participant exactly
if all earlier ones come before it by their times, equal times in the order of their names; then
every further submission of the participant is refused and is told of it. Otherwise an earlier one
that has failed is found in its place, and a further submission under a new name is accepted,
too. -/
theorem submit_visible_iff (h : reg.submit raw id now = (.ok r, after)) :
    after.store.find? id = some r ∧ r.id = id ∧ Did.parse raw = .ok r.did ∧
    (after.store.latest? r.did = some r ↔ ∀ q ∈ reg.store.records, q.did = r.did →
      q.createdAt < now ∨ q.createdAt = now ∧ q.id.text ≤ id.text) ∧
    (after.store.latest? r.did = some r → ∀ raw' id' now', Did.parse raw' = .ok r.did →
      after.submit raw' id' now' =
        (.error (.alreadyRegistered r.did id .onboardingInitiated), after)) ∧
    (after.store.latest? r.did ≠ some r → ∃ last ∈ reg.store.records,
      after.store.latest? r.did = some last ∧ reg.store.latest? r.did = some last ∧
      last.state.isFailure = true ∧
      ∀ raw' id' now', Did.parse raw' = .ok r.did → after.store.find? id' = none →
        (after.submit raw' id' now').1 = .ok (.new id' r.did now')) := by
  obtain ⟨did, hparse, rfl, -, hrecords, hfailed⟩ := records_of_submit_eq_ok h
  have hmem : Record.new id did now ∈ after.store.records := by
    rw [hrecords]
    exact List.mem_cons_self
  refine ⟨Store.find?_eq_some_iff.2 ⟨hmem, rfl⟩, rfl, hparse, ?_, ?_, ?_⟩
  · rw [Store.latest?_eq_some_iff]
    constructor
    · rintro ⟨-, -, hall⟩ q hq hdid
      have hbefore := hall q (by rw [hrecords]; exact List.mem_cons_of_mem _ hq) hdid
      exact Record.precedes_iff.1 hbefore
    · intro hall
      refine ⟨hmem, rfl, ?_⟩
      intro q hq hdid
      rw [hrecords] at hq
      rcases List.mem_cons.1 hq with rfl | hq
      · exact Record.precedes_rfl
      · exact Record.precedes_iff.2 (hall q hq hdid)
  · intro hlast raw' id' now' hparse'
    exact submit_of_latest? hlast rfl hparse'
  · intro hhidden
    cases hl : after.store.latest? did with
    | none => exact absurd rfl (Store.latest?_eq_none_iff.1 hl _ hmem)
    | some last =>
      obtain ⟨hlmem, hldid, hall⟩ := Store.latest?_spec hl
      have hold : last ∈ reg.store.records := by
        rw [hrecords] at hlmem
        refine (List.mem_cons.1 hlmem).resolve_left ?_
        rintro rfl
        exact hhidden hl
      -- It was the latest before, too.
      have hbefore : reg.store.latest? did = some last := by
        refine Store.latest?_eq_some_iff.2 ⟨hold, hldid, ?_⟩
        intro q hq
        exact hall q (by rw [hrecords]; exact List.mem_cons_of_mem _ hq)
      refine ⟨last, hold, hl, hbefore, hfailed last hbefore, ?_⟩
      intro raw' id' now' hparse' hnew
      exact submit_of_latest?_of_isFailure hl (hfailed last hbefore) hparse' hnew

/-- After a registration that has failed, another one that is created at the same time and has the
greater name is found at once, and a third submission is told of it. -/
theorem second_submission_is_visible : ∃ (deeds : List Deed) (w : World (Bureau .welcome))
    (after : Registry Store (Bureau .welcome)) (q r : Record),
    World.Run { budgets := ⟨1, 1, 1⟩ } (World.initial ⟨.ofSeconds 11⟩) deeds w ∧
      w.registry.store.records = [q] ∧ q.did = r.did ∧ q.state = .verificationFailed ∧
      w.registry.submit "did:web:participant" ⟨"2"⟩ .epoch = (.ok r, after) ∧
      q.createdAt = r.createdAt ∧ after.store.latest? r.did = some r ∧
      after.submit "did:web:participant" ⟨"3"⟩ .epoch =
        (.error (.alreadyRegistered r.did ⟨"2"⟩ .onboardingInitiated), after) := by
  obtain ⟨deeds, w, hrun, hw⟩ := World.exists_run_drain_submit { budgets := ⟨1, 1, 1⟩ }
    (⟨.ofSeconds 11⟩ : Bureau .welcome) "did:web:participant" ⟨"1"⟩ (fun _ => .epoch) 3
  have hok : (w.registry.submit "did:web:participant" ⟨"2"⟩ .epoch).1.isOk = true := by
    rw [hw]
    decide +kernel
  have hfailed : w.registry.store.records.length = 1 ∧ ∀ q ∈ w.registry.store.records,
      Did.parse "did:web:participant" = .ok q.did ∧ q.state = .verificationFailed ∧
        q.createdAt = .epoch ∧ q.id.text ≤ "2" := by
    rw [hw]
    decide +kernel
  obtain ⟨hone, hall⟩ := hfailed
  obtain ⟨q, hq⟩ := List.length_eq_one_iff.1 hone
  rw [hq] at hall
  obtain ⟨hparse', hstate, hcreated, hname⟩ := hall q List.mem_cons_self
  obtain ⟨r, h⟩ := submit_eq_ok_of_isOk hok
  obtain ⟨-, -, hparse, hiff, hrefused, -⟩ := submit_visible_iff h
  obtain ⟨did, -, hnew, -⟩ := records_of_submit_eq_ok h
  have hdid : q.did = r.did := Except.ok.inj (hparse'.symm.trans hparse)
  have hlatest := hiff.2 (by
    intro p hp _
    rw [hq] at hp
    rw [List.mem_singleton.1 hp]
    exact Or.inr ⟨hcreated, hname⟩)
  refine ⟨deeds, w, _, q, r, hrun, hq, hdid, hstate, h, ?_, hlatest, hrefused hlatest _ _ _ hparse⟩
  rw [hcreated, hnew]
  rfl

/-- A registration fails at one second. With a clock that is back at the second before, another is
accepted; it is not found, and a third is accepted as well. -/
theorem submission_is_not_visible : ∃ (deeds : List Deed) (w : World (Bureau .welcome))
    (after : Registry Store (Bureau .welcome)) (r third : Record),
    World.Run { budgets := ⟨1, 1, 1⟩ } (World.initial ⟨.ofSeconds 11⟩) deeds w ∧
      w.registry.store.find? ⟨"2"⟩ = none ∧
      w.registry.submit "did:web:participant" ⟨"2"⟩ .epoch = (.ok r, after) ∧
      after.store.latest? r.did ≠ some r ∧
      (after.submit "did:web:participant" ⟨"3"⟩ .epoch).1 = .ok third := by
  obtain ⟨deeds, w, hrun, hw⟩ := World.exists_run_drain_submit { budgets := ⟨1, 1, 1⟩ }
    (⟨.ofSeconds 11⟩ : Bureau .welcome) "did:web:participant" ⟨"1"⟩
    (fun _ => Instant.epoch.after (.ofSeconds 1)) 3
  let after := (w.registry.submit "did:web:participant" ⟨"2"⟩ .epoch).2
  have hok : (w.registry.submit "did:web:participant" ⟨"2"⟩ .epoch).1.isOk = true := by
    rw [hw]
    decide +kernel
  have hok' : (after.submit "did:web:participant" ⟨"3"⟩ .epoch).1.isOk = true := by
    simp only [after, hw]
    decide +kernel
  obtain ⟨r, h⟩ := submit_eq_ok_of_isOk hok
  obtain ⟨third, hthird⟩ := submit_eq_ok_of_isOk hok'
  -- The one that has failed is the latest of all that there are.
  have hlatest : ∀ q ∈ after.store.records,
      (after.store.latest? q.did).map Record.id = some ⟨"1"⟩ := by
    simp only [after, hw]
    decide +kernel
  obtain ⟨did, -, hnew, hfree, hrecords, -⟩ := records_of_submit_eq_ok h
  have hhidden : after.store.latest? r.did ≠ some r := by
    intro hfound
    have hname := hlatest r (by rw [hrecords]; exact List.mem_cons_self)
    rw [hfound, hnew] at hname
    simp [Record.new] at hname
  exact ⟨deeds, w, after, r, third, hrun, hfree, h, hhidden, congrArg Prod.fst hthird⟩

end Onboarding.Registry
