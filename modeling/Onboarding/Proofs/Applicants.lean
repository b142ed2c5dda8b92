import Mathlib.Data.List.Forall2
import Onboarding.Demo
import Onboarding.Proofs.Admission
import Onboarding.Proofs.Identifiers
import Onboarding.Proofs.Precedence
import Onboarding.Proofs.Schedule

namespace Onboarding

namespace Demo

def registrants (raws : List String) : List Did :=
  (raws.filterMap fun raw => (Did.parse raw).toOption).eraseDups

/-- A participant is registered if one of the texts names it. -/
theorem mem_registrants {raws : List String} {did : Did} :
    did ∈ registrants raws ↔ ∃ raw ∈ raws, Did.parse raw = .ok did := by
  rw [registrants, List.mem_eraseDups, List.mem_filterMap]
  refine exists_congr fun raw => and_congr_right fun _ => ?_
  cases Did.parse raw <;> simp [Except.toOption]

/-- A text is the first to name its participant if no text before it is the same up to white space
around it. -/
theorem exists_not_mem_registrants_iff {raws : List String} {raw : String} :
    (∃ did, Did.parse raw = .ok did ∧ did ∉ registrants raws) ↔
      (Did.parse raw).isOk = true ∧ ∀ other ∈ raws, Text.trimmed other ≠ Text.trimmed raw := by
  cases hd : Did.parse raw with
  | error e => simp [Except.isOk, Except.toBool]
  | ok did =>
    have hsame : did ∈ registrants raws ↔
        ∃ other ∈ raws, Text.trimmed other = Text.trimmed raw := by
      rw [mem_registrants]
      exact exists_congr fun other => and_congr_right fun _ => Did.parse_eq_ok_iff hd
    constructor
    · rintro ⟨found, hfound, hnew⟩
      cases hfound
      exact ⟨rfl, fun other hother h => hnew (hsame.2 ⟨other, hother, h⟩)⟩
    · rintro ⟨-, hnew⟩
      refine ⟨did, rfl, fun hmem => ?_⟩
      obtain ⟨other, hother, h⟩ := hsame.1 hmem
      exact hnew other hother h

theorem eraseDups_snoc {α : Type} [DecidableEq α] (l : List α) (a : α) :
    (l ++ [a]).eraseDups = if a ∈ l then l.eraseDups else l.eraseDups ++ [a] := by
  rw [List.eraseDups_append]
  by_cases h : a ∈ l <;> simp [List.removeAll, List.eraseDups_cons, h]

theorem registrants_snoc (raws : List String) (raw : String) :
    registrants (raws ++ [raw]) =
      match Did.parse raw with
      | .error _ => registrants raws
      | .ok did =>
        if did ∈ registrants raws then registrants raws else registrants raws ++ [did] := by
  rw [registrants, List.filterMap_append, List.filterMap_cons, List.filterMap_nil]
  cases Did.parse raw with
  | error e => rw [registrants, Except.toOption, List.append_nil]
  | ok did =>
    simp only [registrants, List.mem_eraseDups]
    exact eraseDups_snoc _ did

end Demo

namespace Registry

variable {κ : Type} {reg : Registry Store κ} {raw : String} {did : Did} {id : ParticipantId}
  {now : Instant}

theorem register_collaborators (reg : Registry Store κ) (r : Record) :
    (reg.register r).2.collaborators = reg.collaborators := by
  unfold register request
  simp only [RecordStore.create]
  cases reg.store.create r <;> rfl

/-- Where no registration has failed, a participant who has one is refused. -/
theorem exists_submit_eq_error (hopen : ∀ r ∈ reg.store.records, r.state.isFailure = false)
    (h : ∀ did, Did.parse raw = .ok did → did ∈ reg.store.records.map Record.did) :
    ∃ error, reg.submit raw id now = (.error error, reg) := by
  rw [submit_eq]
  cases hd : Did.parse raw with
  | error e => exact ⟨.invalidDid e, by rw [vet_of_parse_eq_error hd]⟩
  | ok did =>
    rw [vet_of_parse_eq_ok hd]
    cases hl : reg.store.latest? did with
    | none =>
      obtain ⟨r, hr, hrdid⟩ := List.mem_map.1 (h did hd)
      exact absurd hrdid (Store.latest?_eq_none_iff.1 hl r hr)
    | some last =>
      have hlive := hopen last (Store.latest?_spec hl).1
      exact ⟨.alreadyRegistered did last.id last.state, by simp [hlive]⟩

/-- A participant who has none gets one, under a name that is not taken. -/
theorem exists_submit_eq_ok (hd : Did.parse raw = .ok did)
    (hnone : did ∉ reg.store.records.map Record.did)
    (hid : ∀ r ∈ reg.store.records, r.id ≠ id) :
    ∃ after, reg.submit raw id now = (.ok (.new id did now), after) ∧
      after.store.records = .new id did now :: reg.store.records ∧
      after.collaborators = reg.collaborators := by
  have hl : reg.store.latest? did = none := by
    rw [Store.latest?_eq_none_iff]
    intro r hr hrdid
    exact hnone (List.mem_map.2 ⟨r, hr, hrdid⟩)
  obtain ⟨t, hcreate, hrecords⟩ := Store.exists_create_eq_ok (r := .new id did now)
    (Store.find?_eq_none_iff.2 hid)
  obtain ⟨hresult, hstore⟩ := register_of_create_eq_ok hcreate
  refine ⟨(reg.register (.new id did now)).2, ?_, ?_, register_collaborators reg _⟩
  · rw [submit_eq, vet_of_parse_eq_ok hd, hl]
    exact Prod.ext hresult rfl
  · rw [hstore, hrecords]

end Registry

namespace Demo

variable {κ : Type} {ids : Nat → ParticipantId} {clock : Nat → Instant} {told : List Submission}
  {reg after : Registry Store κ} {raw : String}

/-- The registry as it is after submissions that were answered so, if it was empty before. -/
structure Admitted (ids : Nat → ParticipantId) (clock : Nat → Instant) (told : List Submission)
    (reg : Registry Store κ) : Prop where
  registered : reg.store.records.reverse.map Record.did = registrants (told.map Prod.fst)
  named : ∀ r ∈ reg.store.records, ∃ j < reg.store.records.length, r.id = ids j
  fresh : ∀ r ∈ reg.store.records, ∃ n < told.length, r = .new r.id r.did (clock n)
  paired : List.Forall₂ (fun s name => s.2 = .ok name.1 ∧ Did.parse s.1 = .ok name.2)
    (told.filter (·.2.isOk)) (reg.store.records.reverse.map fun r => (r.id, r.did))
  firsts : ∀ before s after, told = before ++ s :: after →
    (s.2.isOk = true ↔ ∃ did, Did.parse s.1 = .ok did ∧ did ∉ registrants (before.map Prod.fst))

namespace Admitted

theorem length_eq (h : Admitted ids clock told reg) :
    reg.store.records.length = (registrants (told.map Prod.fst)).length := by
  rw [← h.registered, List.length_map, List.length_reverse]

theorem length_le (h : Admitted ids clock told reg) :
    reg.store.records.length ≤ told.length := by
  have hlength := h.paired.length_eq
  rw [List.length_map, List.length_reverse] at hlength
  rw [← hlength]
  exact List.length_filter_le _ _

theorem mem_did_iff (h : Admitted ids clock told reg) {did : Did} :
    did ∈ reg.store.records.map Record.did ↔ did ∈ registrants (told.map Prod.fst) := by
  rw [← h.registered, List.map_reverse, List.mem_reverse]

theorem accepted_eq (h : Admitted ids clock told reg) :
    Demo.accepted told = reg.store.records.reverse.map Record.id := by
  have hnames {given : List Submission} {names : List (ParticipantId × Did)}
      (hpaired : List.Forall₂ (fun s name => s.2 = .ok name.1 ∧ Did.parse s.1 = .ok name.2)
        given names) : given.filterMap (·.2.toOption) = names.map Prod.fst := by
    induction hpaired with
    | nil => rfl
    | cons hs _ ih =>
      rw [List.filterMap_cons, hs.1, ih]
      rfl
  have hfilter : Demo.accepted told = (told.filter (·.2.isOk)).filterMap (·.2.toOption) := by
    rw [List.filterMap_filter]
    refine List.filterMap_congr fun s _ => ?_
    cases s.2 <;> rfl
  rw [hfilter, hnames h.paired, List.map_map]
  rfl

theorem not_isFailure (h : Admitted ids clock told reg) :
    ∀ r ∈ reg.store.records, r.state.isFailure = false := by
  intro r hr
  obtain ⟨n, -, hnew⟩ := h.fresh r hr
  rw [hnew]
  rfl

theorem firsts_snoc (h : Admitted ids clock told reg) {s : Submission}
    (hs : s.2.isOk = true ↔
      ∃ did, Did.parse s.1 = .ok did ∧ did ∉ registrants (told.map Prod.fst)) :
    ∀ before t rest, told ++ [s] = before ++ t :: rest → (t.2.isOk = true ↔
      ∃ did, Did.parse t.1 = .ok did ∧ did ∉ registrants (before.map Prod.fst)) := by
  intro before t rest hsplit
  rcases append_eq_split hsplit with ⟨middle, htold⟩ | ⟨middle, hbefore, hlast⟩
  · exact h.firsts before t middle htold
  · -- Nothing stands between the answers so far and the last one.
    obtain ⟨rfl, rfl⟩ : middle = [] ∧ s = t := by
      cases middle with
      | nil => exact ⟨rfl, (List.cons.inj hlast).1⟩
      | cons first rest => simp at hlast
    rw [hbefore, List.append_nil]
    exact hs

/-- A text that names nobody new is refused, and the registry stays as it is. -/
theorem refused (h : Admitted ids clock told reg) {error : ServiceError}
    (hd : ∀ did, Did.parse raw = .ok did → did ∈ registrants (told.map Prod.fst)) :
    Admitted ids clock (told ++ [(raw, .error error)]) reg := by
  constructor
  · rw [h.registered, List.map_append, List.map_singleton, registrants_snoc]
    cases hparse : Did.parse raw with
    | error e => rfl
    | ok did => exact (if_pos (hd did hparse)).symm
  · exact h.named
  · intro r hr
    obtain ⟨n, hn, hnew⟩ := h.fresh r hr
    exact ⟨n, by rw [List.length_append]; omega, hnew⟩
  · rw [List.filter_append]
    simpa [Except.isOk, Except.toBool] using h.paired
  · refine h.firsts_snoc ⟨nofun, ?_⟩
    rintro ⟨did, hparse, hnew⟩
    exact absurd (hd did hparse) hnew

/-- A text that names somebody new is accepted, and one record is put in front of the others. -/
theorem accepted (h : Admitted ids clock told reg) {did : Did} (hd : Did.parse raw = .ok did)
    (hnew : did ∉ registrants (told.map Prod.fst))
    (hrecords : after.store.records =
      .new (ids reg.store.records.length) did (clock told.length) :: reg.store.records) :
    Admitted ids clock (told ++ [(raw, .ok (ids reg.store.records.length))]) after := by
  have hlength : after.store.records.length = reg.store.records.length + 1 := by
    rw [hrecords, List.length_cons]
  constructor
  · rw [hrecords, List.reverse_cons, List.map_append, h.registered, List.map_append,
      List.map_singleton, List.map_singleton, registrants_snoc, hd]
    simp only [if_neg hnew]
    rfl
  · intro r hr
    rw [hrecords] at hr
    rcases List.mem_cons.1 hr with rfl | hr
    · exact ⟨reg.store.records.length, by omega, rfl⟩
    · obtain ⟨j, hj, hid⟩ := h.named r hr
      exact ⟨j, by omega, hid⟩
  · intro r hr
    rw [hrecords] at hr
    rw [List.length_append, List.length_singleton]
    rcases List.mem_cons.1 hr with rfl | hr
    · exact ⟨told.length, by omega, rfl⟩
    · obtain ⟨n, hn, hfresh⟩ := h.fresh r hr
      exact ⟨n, by omega, hfresh⟩
  · rw [List.filter_append, hrecords, List.reverse_cons, List.map_append]
    exact List.rel_append h.paired (.cons ⟨rfl, hd⟩ .nil)
  · exact h.firsts_snoc ⟨fun _ => ⟨did, hd, hnew⟩, fun _ => rfl⟩

/-- A submission is accepted if it is the first to name its participant. -/
theorem submit (h : Admitted ids clock told reg)
    (hids : ∀ j < reg.store.records.length, ids j ≠ ids reg.store.records.length) (raw : String) :
    (∃ error, reg.submit raw (ids reg.store.records.length) (clock told.length) =
        (.error error, reg) ∧ Admitted ids clock (told ++ [(raw, .error error)]) reg) ∨
    ∃ r after, reg.submit raw (ids reg.store.records.length) (clock told.length) =
        (.ok r, after) ∧ Admitted ids clock (told ++ [(raw, .ok r.id)]) after ∧
      after.store.records.length = reg.store.records.length + 1 ∧
      after.collaborators = reg.collaborators := by
  -- A text that names nobody new is refused, whether it names somebody or not.
  by_cases hold : ∀ did, Did.parse raw = .ok did → did ∈ registrants (told.map Prod.fst)
  · obtain ⟨error, hsubmit⟩ := Registry.exists_submit_eq_error h.not_isFailure
      fun did hd => h.mem_did_iff.2 (hold did hd)
    exact Or.inl ⟨error, hsubmit, h.refused hold⟩
  · obtain ⟨did, hnot⟩ := not_forall.1 hold
    obtain ⟨hd, hnew⟩ := Classical.not_imp.1 hnot
    -- The names that are taken are those before the next one.
    have hid : ∀ r ∈ reg.store.records, r.id ≠ ids reg.store.records.length := by
      intro r hr
      obtain ⟨j, hj, hrid⟩ := h.named r hr
      rw [hrid]
      exact hids j hj
    obtain ⟨after, hsubmit, hrecords, hsame⟩ :=
      Registry.exists_submit_eq_ok hd (mt h.mem_did_iff.1 hnew) hid
    exact Or.inr ⟨_, after, hsubmit, h.accepted hd hnew hrecords,
      by rw [hrecords, List.length_cons], hsame⟩

/-- The invariant is kept by any number of submissions, which are answered in their order. -/
theorem submitAll (raws : List String) : ∀ {told : List Submission} {reg : Registry Store κ},
    Admitted ids clock told reg →
    (∀ i < told.length + raws.length, ∀ j < i, ids j ≠ ids i) →
    ∃ others after,
      Demo.submitAll ids clock told.length reg.store.records.length raws reg = (others, after) ∧
      others.map Prod.fst = raws ∧ Admitted ids clock (told ++ others) after ∧
      after.collaborators = reg.collaborators := by
  -- On the texts that are left. Their answers come after those that have been given.
  induction raws with
  | nil =>
    intro told reg h _
    exact ⟨[], reg, rfl, rfl, by rwa [List.append_nil], rfl⟩
  | cons raw rest ih =>
    intro told reg h hids
    have hle := h.length_le
    have hnext (answer : Except ServiceError ParticipantId) :
        (told ++ [(raw, answer)]).length + rest.length = told.length + (raw :: rest).length := by
      simp only [List.length_append, List.length_cons, List.length_nil]
      omega
    rcases h.submit (hids _ (by rw [List.length_cons]; omega)) raw with
      ⟨error, hsubmit, hadmitted⟩ | ⟨r, next, hsubmit, hadmitted, hlength, hsame⟩
    · obtain ⟨others, after, hall, hraws, hend, hkept⟩ := ih hadmitted (by rwa [hnext])
      rw [List.length_append, List.length_singleton] at hall
      refine ⟨(raw, .error error) :: others, after, ?_, by rw [List.map_cons, hraws], ?_, hkept⟩
      · simp only [Demo.submitAll, hsubmit, Nat.add_zero, hall]
        rfl
      · rwa [List.append_assoc, List.singleton_append] at hend
    · obtain ⟨others, after, hall, hraws, hend, hkept⟩ := ih hadmitted (by rwa [hnext])
      rw [List.length_append, List.length_singleton, hlength] at hall
      refine ⟨(raw, .ok r.id) :: others, after, ?_, by rw [List.map_cons, hraws], ?_,
        hkept.trans hsame⟩
      · simp only [Demo.submitAll, hsubmit, hall]
        rfl
      · rwa [List.append_assoc, List.singleton_append] at hend

end Admitted

/-- Texts that are submitted to an empty registry, under names that are all different. -/
theorem exists_submitAll_eq (k : κ) (raws : List String)
    (hids : ∀ i < raws.length, ∀ j < i, ids j ≠ ids i) :
    ∃ told reg, submitAll ids clock 0 0 raws { store := Store.empty, collaborators := k } =
        (told, reg) ∧ told.map Prod.fst = raws ∧ Admitted ids clock told reg ∧
      reg.collaborators = k := by
  have hinitial : Admitted ids clock [] ({ store := .empty, collaborators := k }) := by
    constructor <;> simp [Store.empty, registrants]
  have hall : ∀ i < ([] : List Submission).length + raws.length, ∀ j < i, ids j ≠ ids i := by
    rwa [List.length_nil, Nat.zero_add]
  exact hinitial.submitAll raws hall

end Demo

end Onboarding
