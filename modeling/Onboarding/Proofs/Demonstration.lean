import Onboarding.Proofs.Applicants
import Onboarding.Proofs.Desk

namespace Onboarding

namespace Directory

theorem membership?_withEntry (d : Directory) (name : String) (member : Bool) (did : Did) :
    (d.withEntry name member).membership? did =
      if did.text = name then some member else d.membership? did := by
  by_cases h : did.text = name
  · simp [membership?, withEntry, Json.lookup, h]
  · have hrest : Json.lookup did.text (d.withEntry name member).entries =
        Json.lookup did.text d.entries := if_neg (Ne.symm h)
    rw [if_neg h, membership?, hrest]
    rfl

/-- Members who are added replace what was known of them. -/
theorem membership?_foldl_withEntry (members : List String) (did : Did) : ∀ d : Directory,
    (members.foldl (fun directory name => directory.withEntry name true) d).membership? did =
      if did.text ∈ members then some true else d.membership? did := by
  induction members with
  | nil =>
    intro d
    simp
  | cons name rest ih =>
    intro d
    rw [List.foldl_cons, ih, membership?_withEntry]
    by_cases hrest : did.text ∈ rest <;> by_cases hname : did.text = name <;> simp [hrest, hname]

end Directory

namespace Demo

/-- The members are those that are named and alice; carol is known not to be one, and nobody else is
known. -/
theorem membership?_directory (d : Demo) (did : Did) :
    d.directory.membership? did =
      if did.text ∈ d.members ∨ did.text = "did:example:alice" then some true
      else if did.text = "did:example:carol" then some false
      else none := by
  rw [directory, Directory.membership?_foldl_withEntry, Directory.membership?_withEntry,
    Directory.membership?_withEntry]
  -- Who is named as a member is one, whatever was known before; nobody is both alice and carol.
  by_cases hmember : did.text ∈ d.members
  · simp [hmember]
  · by_cases hcarol : did.text = "did:example:carol"
    · simp [hcarol]
    · simp [hmember, hcarol, Directory.membership?, Json.lookup]

/-- Those that are members are onboarded, carol is denied membership, and the identities of all
others are not found. -/
theorem fate_directory (d : Demo) (did : Did) :
    d.directory.fate did =
      if did.text ∈ d.members ∨ did.text = "did:example:alice" then (.onboarded, none)
      else if did.text = "did:example:carol" then
        (.policyDenied, some ("policy denied membership: " ++ ({} : ClaimPolicy).denial))
      else (.verificationFailed, some "identity not found") := by
  rw [Directory.fate, membership?_directory]
  by_cases hmember : did.text ∈ d.members ∨ did.text = "did:example:alice"
  · simp only [if_pos hmember]
  · by_cases hcarol : did.text = "did:example:carol"
    · simp only [if_neg hmember, if_pos hcarol]
    · simp only [if_neg hmember, if_neg hcarol]

theorem statuses_eq {κ : Type} {reg : Registry Store κ} (records : List Record)
    (h : ∀ r ∈ records, r ∈ reg.store.records) :
    statuses (records.map Record.id) reg = .ok (records.map Record.view) := by
  induction records with
  | nil => rfl
  | cons r rest ih =>
    have hget : reg.store.get r.id = .ok r :=
      Store.get_eq_ok_iff.2 (Store.find?_eq_some_iff.2 ⟨h r (List.mem_cons_self ..), rfl⟩)
    have hstatus : reg.status r.id = (.ok r.view, reg) := by
      simp only [Registry.status, Registry.request, RecordStore.get, hget, Except.map]
    rw [List.map_cons, statuses, hstatus]
    simp only [ih fun r hr => h r (List.mem_cons_of_mem _ hr), Except.map, List.map_cons]

def cycleClock (start : Instant) (k : Nat) : Instant :=
  start.after ⟨k * ({} : Tuning).backoff.cap.nanoseconds⟩

def cyclesToEnd (d : Demo) : Nat :=
  -- Four rounds over the registrations of all who are named.
  4 * (((registrants d.applicants).length + 49) / 50)

variable {d : Demo} {ids : Nat → ParticipantId} {clock : Nat → Instant}

/-- All that was submitted is due when the cycles begin. -/
theorem Admitted.isReady {κ : Type} {told : List Submission} {reg : Registry Store κ}
    (h : Admitted ids clock told reg) (hclock : ∀ i < told.length, clock i < clock told.length) :
    reg.store.IsReady (cycleClock (clock told.length) 0) := by
  intro r hr _
  obtain ⟨n, hn, hnew⟩ := h.fresh r hr
  have hlt : clock n < cycleClock (clock told.length) 0 := by
    rw [cycleClock, Nat.zero_mul, Instant.after_zero]
    exact hclock n hn
  rw [hnew]
  exact ⟨hlt, le_of_lt hlt⟩

/-- Records that kept their names, their participants and their order are shown as the registrations
of those who were accepted. -/
theorem Admitted.shown {κ : Type} {told : List Submission} {reg : Registry Store κ}
    (h : Admitted ids clock told reg) {records : List Record}
    (hkept : records.map (fun r => (r.id, r.did)) =
      reg.store.records.map (fun r => (r.id, r.did))) :
    records.reverse.map Record.id = Demo.accepted told ∧
      (records.reverse.map Record.view).map View.did = registrants (told.map Prod.fst) ∧
      List.Forall₂ (fun s view => s.2 = .ok view.id ∧ Did.parse s.1 = .ok view.did)
        (told.filter (·.2.isOk)) (records.reverse.map Record.view) := by
  have hreverse : records.reverse.map (fun r => (r.id, r.did)) =
      reg.store.records.reverse.map (fun r => (r.id, r.did)) := by
    rw [List.map_reverse, List.map_reverse, hkept]
  have hids : records.reverse.map Record.id = reg.store.records.reverse.map Record.id := by
    have hfst := congrArg (List.map Prod.fst) hreverse
    rwa [List.map_map, List.map_map] at hfst
  have hdids : records.reverse.map Record.did = reg.store.records.reverse.map Record.did := by
    have hsnd := congrArg (List.map Prod.snd) hreverse
    rwa [List.map_map, List.map_map] at hsnd
  refine ⟨hids.trans h.accepted_eq.symm, ?_, ?_⟩
  · rw [List.map_map]
    exact hdids.trans h.registered
  · have hpaired := h.paired
    rw [← hreverse, List.forall₂_map_right_iff] at hpaired
    rw [List.forall₂_map_right_iff]
    exact hpaired

theorem run_eq {told : List Submission} {reg last : Registry Store Desk}
    {reports : List CycleReport} {views : List View}
    (hsubmit : submitAll ids clock 0 0 d.applicants
      { store := Store.empty, collaborators := { directory := d.directory } } = (told, reg))
    (hdrain : Registry.drain {} (cycleClock (clock d.applicants.length)) d.maxCycles 0 reg =
      (.ok reports, last))
    (hviews : statuses (accepted told) last = .ok views) :
    d.run ids clock = .ok ⟨told, busyCycles reports, views⟩ := by
  unfold cycleClock at hdrain
  simp only [run, hsubmit, hdrain, hviews, Except.map]

/-- A demonstration settles everything that it registers. Those texts are accepted that name a
participant and are, up to white space around them, the first to do so; and the views are those of
their registrations, in this order. All have ended without a failed attempt: members are onboarded,
carol is denied membership unless she is named as a member, and others are not found. This takes
four rounds, if the clock goes on, as it would not at the end of the calendar. -/
theorem run_settles
    (hids : ∀ i < d.applicants.length, ∀ j < i, ids j ≠ ids i)
    (hclock : ∀ i ≤ d.applicants.length, ∀ j < i, clock j < clock i)
    (hcycles : ∀ k < d.cyclesToEnd, ∀ j < k, cycleClock (clock d.applicants.length) j <
      cycleClock (clock d.applicants.length) k)
    (hmax : d.cyclesToEnd ≤ d.maxCycles) :
    ∃ report, d.run ids clock = .ok report ∧
      report.submissions.map Prod.fst = d.applicants ∧
      (∀ before raw answer after, report.submissions = before ++ (raw, answer) :: after →
        (answer.isOk = true ↔ (Did.parse raw).isOk = true ∧
          ∀ s ∈ before, Text.trimmed s.1 ≠ Text.trimmed raw)) ∧
      report.views.map View.did = registrants d.applicants ∧
      List.Forall₂ (fun s view => s.2 = .ok view.id ∧ Did.parse s.1 = .ok view.did)
        (report.submissions.filter (·.2.isOk)) report.views ∧
      ∀ view ∈ report.views, view.state.isTerminal = true ∧ view.retryCount = 0 ∧
        (view.state, view.errorDetail) =
          if view.did.text ∈ d.members ∨ view.did.text = "did:example:alice" then
            (.onboarded, none)
          else if view.did.text = "did:example:carol" then
            (.policyDenied, some ("policy denied membership: " ++ ({} : ClaimPolicy).denial))
          else (.verificationFailed, some "identity not found") := by
  obtain ⟨told, reg, hsubmit, hraws, hadmitted, hdesk⟩ :=
    exists_submitAll_eq ({ directory := d.directory } : Desk) d.applicants hids
  have htold : told.length = d.applicants.length := by
    rw [← hraws, List.length_map]
  have hnew : ∀ r ∈ reg.store.records, ∃ id did now, r = .new id did now := by
    intro r hr
    obtain ⟨n, -, hfresh⟩ := hadmitted.fresh r hr
    exact ⟨r.id, r.did, clock n, hfresh⟩
  have hready := hadmitted.isReady (by rw [htold]; exact hclock _ le_rfl)
  rw [htold] at hready
  have hcover : reg.store.records.length ≤ ((registrants d.applicants).length + 49) / 50 * 50 := by
    rw [hadmitted.length_eq, hraws]
    omega
  obtain ⟨reports, last, hdrain, hkept, hends⟩ := Desk.exists_drain_eq d.directory hdesk hnew
    hready (fun n hn => hcycles (n + 1) hn n (Nat.lt_succ_self n)) hcover hmax
  -- The cycles leave the names and the participants of the records, and their order.
  obtain ⟨hnamed, hregistered, hpaired⟩ := hadmitted.shown hkept
  have hviews := statuses_eq last.store.records.reverse fun r hr => List.mem_reverse.1 hr
  rw [hnamed] at hviews
  rw [hraws] at hregistered
  refine ⟨⟨told, busyCycles reports, last.store.records.reverse.map Record.view⟩,
    run_eq hsubmit hdrain hviews, hraws, ?_, hregistered, hpaired, ?_⟩
  · intro before raw answer after hsplit
    rw [hadmitted.firsts before (raw, answer) after hsplit, exists_not_mem_registrants_iff,
      List.forall_mem_map]
  · intro view hview
    obtain ⟨r, hr, rfl⟩ := List.mem_map.1 hview
    obtain ⟨hend, hcount, hfate⟩ := hends r (List.mem_reverse.1 hr)
    rw [fate_directory] at hfate
    exact ⟨hend, hcount, hfate⟩

def assorted : Demo where
  dids := ["did:example:carol", " did:example:alice", "nobody", "did:example:alice ",
    "did:example:bob", "did:example:alice", "did:example:dave"]
  members := ["did:example:dave"]

def numbered (n : Nat) : ParticipantId := ⟨toString n⟩

theorem assorted_is_settled :
    (∀ i < assorted.applicants.length, ∀ j < i, numbered j ≠ numbered i) ∧
    (∀ i ≤ assorted.applicants.length, ∀ j < i, Instant.everySecond j < Instant.everySecond i) ∧
    (∀ k < assorted.cyclesToEnd, ∀ j < k,
      cycleClock (Instant.everySecond assorted.applicants.length) j <
        cycleClock (Instant.everySecond assorted.applicants.length) k) ∧
    assorted.cyclesToEnd ≤ assorted.maxCycles ∧
    ∃ report, assorted.run numbered Instant.everySecond = .ok report ∧
      report.views.map (fun view => (view.did.text, view.state)) =
        [("did:example:carol", .policyDenied), ("did:example:alice", .onboarded),
          ("did:example:bob", .verificationFailed), ("did:example:dave", .onboarded)] := by
  have hids : ∀ i < assorted.applicants.length, ∀ j < i, numbered j ≠ numbered i := by
    decide +kernel
  have hclock : ∀ i ≤ assorted.applicants.length, ∀ j < i,
      Instant.everySecond j < Instant.everySecond i := by
    decide +kernel
  have hcycles : ∀ k < assorted.cyclesToEnd, ∀ j < k,
      cycleClock (Instant.everySecond assorted.applicants.length) j <
        cycleClock (Instant.everySecond assorted.applicants.length) k := by
    decide +kernel
  have hmax : assorted.cyclesToEnd ≤ assorted.maxCycles := by decide +kernel
  obtain ⟨report, hrun, -, -, hdids, -, hviews⟩ := run_settles hids hclock hcycles hmax
  refine ⟨hids, hclock, hcycles, hmax, report, hrun, ?_⟩
  have hstate : report.views.map (fun view => (view.did.text, view.state)) =
      (report.views.map View.did).map (fun did => (did.text, (assorted.directory.fate did).1)) := by
    rw [List.map_map]
    refine List.map_congr_left fun view hview => ?_
    -- What is said of the end of a registration depends on its participant alone.
    have hfate := (hviews view hview).2.2
    rw [← fate_directory] at hfate
    rw [Function.comp_apply, ← hfate]
  rw [hstate, hdids]
  decide +kernel

end Demo

end Onboarding
