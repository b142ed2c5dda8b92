import Onboarding.Cycle
import Onboarding.Proofs.Succession

namespace Onboarding

variable {σ κ : Type}

namespace StoreError

def endsCycle : StoreError → Bool
  -- All but those that say that somebody else was faster.
  | .conflict .. | .notFound _ => false
  | .alreadyExists _ | .unavailable _ => true

end StoreError

def Call.leaves [Collaborators κ] (k : κ) : Call → κ
  | .resolution did _ => (Collaborators.resolveIdentity k did).2
  | .verification id claims _ => (Collaborators.verifyCredentials k id claims).2
  | .evaluation claims _ => (Collaborators.evaluatePolicy k claims).2

namespace Attempt

def leaves [Collaborators κ] (k : κ) (a : Attempt) : κ := a.call.elim k (Call.leaves k)

def told (a : Attempt) : Except StoreError Record → Except StoreError Outcome
  | .ok _ => .ok a.outcome
  | .error (.conflict ..) => .ok .conflict
  | .error (.notFound _) => .ok .skipped
  | .error e => .error e

/-- Genuine attempts, one after the other. The first of them is made at the reading `n` of the
clock and each at a reading of its own, and the services answer it as those before have left
them. -/
inductive Series [Collaborators κ] (tuning : Tuning) (clock : Nat → Instant) :
    Nat → κ → List Attempt → κ → Prop
  | nil (n : Nat) (k : κ) : Series tuning clock n k [] k
  | cons {n : Nat} {k k' : κ} {a : Attempt} {rest : List Attempt}
      (hgen : a.IsGenuine κ tuning) (hnow : a.now = clock n)
      (hreply : ∀ call ∈ a.call, call.IsReplyOf k)
      (hrest : Series tuning clock (n + 1) (a.leaves k) rest k') :
    Series tuning clock n k (a :: rest) k'

section

variable [Collaborators κ] {tuning : Tuning} {clock : Nat → Instant} {n : Nat} {k k' : κ}
  {attempts : List Attempt}

theorem Series.isGenuine (h : Series tuning clock n k attempts k') :
    ∀ a ∈ attempts, a.IsGenuine κ tuning := by
  induction h with
  | nil => simp
  | cons hgen _ _ _ ih =>
    intro a ha
    rcases List.mem_cons.1 ha with rfl | ha
    · exact hgen
    · exact ih a ha

theorem Series.now_eq (h : Series tuning clock n k attempts k') {i : Nat} {a : Attempt}
    (ha : attempts[i]? = some a) : a.now = clock (n + i) := by
  induction h generalizing i with
  | nil => simp at ha
  | cons _ hnow _ _ ih =>
    cases i with
    | zero =>
      rw [List.getElem?_cons_zero, Option.some.injEq] at ha
      rw [← ha]
      exact hnow
    | succ i =>
      have hlater := ih (by simpa using ha)
      rwa [Nat.add_right_comm, Nat.add_assoc] at hlater

end

def writeAll [RecordStore σ] (s : σ) : List Attempt → List (Except StoreError Outcome) × σ
  -- What a worker is told about each write, and the store after all of them.
  | [] => ([], s)
  | a :: rest =>
    let (answer, t) := RecordStore.compareAndSwap s a.next a.read.version
    let (told, u) := writeAll t rest
    (a.told answer :: told, u)

structure Replaces (attempts : List Attempt) (s t : Store) (became : Record → Record) : Prop where
  -- Each record is written in the place of what it was made with. What became of it is given by its
  -- name.
  records : t.records = s.records.map became
  written : ∀ a ∈ attempts, became a.read = a.written
  others : ∀ r, r.id ∉ attempts.map (·.read.id) → became r = r

/-- A record of the store was replaced by what an attempt has made of it, or stays. -/
theorem Replaces.became_cases {attempts : List Attempt} {s t : Store} {became : Record → Record}
    (h : Replaces attempts s t became) (hstored : ∀ a ∈ attempts, a.read ∈ s.records) {q : Record}
    (hq : q ∈ s.records) :
    (∃ a ∈ attempts, a.read = q ∧ became q = a.written) ∨
      q.id ∉ attempts.map (·.read.id) ∧ became q = q := by
  by_cases hid : q.id ∈ attempts.map (·.read.id)
  · obtain ⟨a, ha, hname⟩ := List.mem_map.1 hid
    have hsame : a.read = q := Store.eq_of_mem_of_id_eq (hstored a ha) hq hname
    exact Or.inl ⟨a, ha, hsame, hsame ▸ h.written a ha⟩
  · exact Or.inr ⟨hid, h.others q hid⟩

/-- A store that always answers writes all attempts with different records as they are stored. -/
theorem exists_writeAll_eq (attempts : List Attempt) : ∀ s : Store,
    (∀ a ∈ attempts, s.find? a.read.id = some a.read) →
    (∀ a ∈ attempts, a.next.id = a.read.id) → (attempts.map (·.read.id)).Nodup →
    ∃ (t : Store) (became : Record → Record),
      writeAll s attempts = (attempts.map (.ok ·.outcome), t) ∧ Replaces attempts s t became := by
  -- On the attempts. Names differ, so that a write leaves the rest of the copies fresh.
  induction attempts with
  | nil =>
    intro s _ _ _
    exact ⟨s, id, rfl, (List.map_id _).symm, by simp, fun _ _ => rfl⟩
  | cons a rest ih =>
    intro s hfresh hid hnodup
    rw [List.map_cons, List.nodup_cons] at hnodup
    have hname : a.written.id = a.read.id := hid a List.mem_cons_self
    have hswap : s.compareAndSwap a.next a.read.version = .ok (a.written, s.replace a.written) := by
      have hfind : s.find? a.next.id = some a.read := by
        rw [hid a List.mem_cons_self, hfresh a List.mem_cons_self]
      exact Store.compareAndSwap_eq_ok_iff.2 ⟨⟨a.read, hfind, rfl⟩, rfl, rfl⟩
    have hne : ∀ b ∈ rest, b.read.id ≠ a.written.id := by
      intro b hb h
      exact hnodup.1 (List.mem_map.2 ⟨b, hb, h.trans hname⟩)
    have hfresh' : ∀ b ∈ rest, (s.replace a.written).find? b.read.id = some b.read := by
      intro b hb
      rw [Store.find?_replace, if_neg (hne b hb)]
      exact hfresh b (List.mem_cons_of_mem a hb)
    obtain ⟨t, became, hall, hrest⟩ := ih (s.replace a.written) hfresh'
      (fun b hb => hid b (List.mem_cons_of_mem a hb)) hnodup.2
    refine ⟨t, fun q => became (if q.id = a.written.id then a.written else q), ?_, ?_, ?_, ?_⟩
    · simp only [writeAll, RecordStore.compareAndSwap, hswap, hall, told, List.map_cons]
    · rw [hrest.records, Store.replace, List.map_map]
      rfl
    · intro b hb
      rcases List.mem_cons.1 hb with rfl | hb
      · -- What has been written is not touched again.
        rw [if_pos hname.symm, hrest.others b.written (by rw [hname]; exact hnodup.1)]
      · rw [if_neg (hne b hb), hrest.written b hb]
    · intro q hq
      rw [List.map_cons, List.mem_cons, not_or] at hq
      rw [if_neg (by rw [hname]; exact hq.1), hrest.others q hq.2]

theorem map_read_id (attempts : List Attempt) :
    attempts.map (·.read.id) = (attempts.map Attempt.read).map Record.id := by
  rw [List.map_map]
  rfl

theorem nodup_of_prefix {attempts : List Attempt} {batch : List Record}
    (hnodup : (batch.map Record.id).Nodup) (hinOrder : attempts.map Attempt.read <+: batch) :
    (attempts.map (·.read.id)).Nodup := by
  rw [map_read_id]
  exact hnodup.sublist (hinOrder.sublist.map Record.id)

/-- A worker is stopped by errors of the store that end a cycle, and by no others. -/
theorem told_eq_error {a : Attempt} {answer : Except StoreError Record} {e : StoreError}
    (h : a.told answer = .error e) : answer = .error e ∧ e.endsCycle = true := by
  cases answer with
  | ok r => cases h
  | error e' => cases e' <;> cases h <;> exact ⟨rfl, rfl⟩

theorem endsCycle_of_told_eq_ok {a : Attempt} {e : StoreError} {outcome : Outcome}
    (h : a.told (.error e) = .ok outcome) : e.endsCycle = false := by
  cases e with
  | alreadyExists _ | unavailable _ => cases h
  | notFound _ | conflict _ _ _ => rfl

end Attempt

def stalledIn (tuning : Tuning) (clock : Nat → Instant) (n : Nat) (batch : List Record) : Nat :=
  -- Each record is looked at at a reading of the clock of its own.
  (batch.zipIdx n).countP fun (r, i) => r.isStalled (clock i) tuning.stallThreshold

theorem stalledIn_cons (tuning : Tuning) (clock : Nat → Instant) (n : Nat) (r : Record)
    (rest : List Record) :
    stalledIn tuning clock n (r :: rest) =
      stalledIn tuning clock (n + 1) rest +
        if r.isStalled (clock n) tuning.stallThreshold then 1 else 0 := by
  rw [stalledIn, List.zipIdx_cons, List.countP_cons]
  rfl

def Outcome.isWritten : Outcome → Bool
  | .advanced .. | .retryScheduled .. | .failed .. => true
  | .conflict | .skipped => false

namespace CycleReport

def including (report : CycleReport) (stalled : Nat) (outcomes : List Outcome) : CycleReport :=
  outcomes.foldl count { report with stalled := report.stalled + stalled }

theorem including_cons (report : CycleReport) (stalled : Nat) (isStalled : Bool)
    (outcome : Outcome) (outcomes : List Outcome) :
    ((report.countStalled isStalled).count outcome).including stalled outcomes =
      report.including (stalled + if isStalled then 1 else 0) (outcome :: outcomes) := by
  -- A record is counted twice over, as stalled and by its outcome, in fields that do not meet.
  have hfirst : ({ (report.countStalled isStalled).count outcome with
      stalled :=
        ((report.countStalled isStalled).count outcome).stalled + stalled } : CycleReport) =
      count { report with
        stalled := report.stalled + (stalled + if isStalled then 1 else 0) } outcome := by
    cases isStalled <;> cases outcome <;>
      simp only [count, countStalled, CycleReport.mk.injEq, if_true, if_false, true_and,
        Bool.false_eq_true] <;> omega
  rw [including, including, List.foldl_cons, hfirst]

/-- Counting outcomes touches their own counts only, and each outcome goes into one of them. -/
theorem foldl_count_spec (outcomes : List Outcome) : ∀ report : CycleReport,
    (outcomes.foldl count report).leased = report.leased ∧
      (outcomes.foldl count report).stalled = report.stalled ∧
      (outcomes.foldl count report).advanced + (outcomes.foldl count report).retried +
          (outcomes.foldl count report).failed =
        report.advanced + report.retried + report.failed + outcomes.countP Outcome.isWritten ∧
      (outcomes.foldl count report).conflicts + (outcomes.foldl count report).skipped =
        report.conflicts + report.skipped + outcomes.countP (!·.isWritten) := by
  induction outcomes with
  | nil => simp
  | cons outcome rest ih =>
    intro report
    obtain ⟨hleased, hstalled, hwritten, hlost⟩ := ih (report.count outcome)
    rw [List.foldl_cons, hleased, hstalled, hwritten, hlost]
    cases outcome <;> simp only [count, Outcome.isWritten, List.countP_cons, Bool.not_true,
      Bool.not_false, if_true, if_false, Bool.false_eq_true, true_and] <;> omega

/-- The counts of a report add up to the outcomes that it includes. -/
theorem including_spec (leased stalled : Nat) (outcomes : List Outcome) :
    (including { leased } stalled outcomes).leased = leased ∧
      (including { leased } stalled outcomes).stalled = stalled ∧
      (including { leased } stalled outcomes).advanced +
          (including { leased } stalled outcomes).retried +
          (including { leased } stalled outcomes).failed = outcomes.countP Outcome.isWritten ∧
      (including { leased } stalled outcomes).conflicts +
          (including { leased } stalled outcomes).skipped = outcomes.countP (!·.isWritten) := by
  have hspec := foldl_count_spec outcomes { leased, stalled := 0 + stalled }
  simpa only [including, Nat.zero_add] using hspec

end CycleReport

namespace Registry

/-- What comes of a step is decided by the answer to its one write. -/
theorem commit_eq_told [RecordStore σ] (reg : Registry σ κ) (a : Attempt) :
    (reg.commit a.read a.next a.route.step a.outcome).1 =
        a.told (RecordStore.compareAndSwap reg.store a.next a.read.version).1 ∧
      (reg.commit a.read a.next a.route.step a.outcome).2.store =
        (RecordStore.compareAndSwap reg.store a.next a.read.version).2 ∧
      (reg.commit a.read a.next a.route.step a.outcome).2.collaborators = reg.collaborators := by
  unfold commit
  obtain ⟨answer, s⟩ := RecordStore.compareAndSwap reg.store a.next a.read.version
  cases answer with
  | ok stored => exact ⟨rfl, rfl, rfl⟩
  | error e => cases e <;> exact ⟨rfl, rfl, rfl⟩

theorem noteStalled_eq (reg : Registry σ κ) (r : Record) (isStalled : Bool) :
    (reg.noteStalled r isStalled).store = reg.store ∧
      (reg.noteStalled r isStalled).collaborators = reg.collaborators := by
  cases isStalled <;> exact ⟨rfl, rfl⟩

variable [Collaborators κ]

theorem ask_collaborators (reg : Registry σ κ) (tuning : Tuning) (r : Record) (step : Step) :
    (reg.ask tuning r step).2.collaborators =
      (reg.call? r step).elim reg.collaborators (Call.leaves reg.collaborators) := by
  cases step with
  | pickUp | resolveIdentity => rfl
  | verifyCredentials =>
    cases hi : r.identity <;> simp only [ask, call?, hi] <;> rfl
  | evaluatePolicy =>
    cases hv : r.verifiedClaims <;> simp only [ask, call?, hv] <;> rfl

/-- A preparation goes as far as the question of the step. -/
theorem eq_ask_of_prepare_eq {reg after : Registry σ κ} {tuning : Tuning} {r : Record}
    {now : Instant} {a : Attempt} (h : reg.prepare tuning r now = (some a, after)) :
    after = (reg.ask tuning r a.route.step).2 ∧ a.call = reg.call? r a.route.step := by
  unfold prepare at h
  cases hr : Route.of? r.state with
  | none =>
    rw [hr] at h
    cases h
  | some route =>
    simp only [hr] at h
    cases hres : r.respond tuning route (reg.ask tuning r route.step).1 now with
    | error e =>
      rw [hres] at h
      cases h
    | ok pair =>
      rw [hres] at h
      cases h
      exact ⟨rfl, rfl⟩

theorem prepare_collaborators {reg after : Registry σ κ} {tuning : Tuning} {r : Record}
    {now : Instant} {a : Attempt} (h : reg.prepare tuning r now = (some a, after)) :
    after.collaborators = a.leaves reg.collaborators := by
  obtain ⟨rfl, hcall⟩ := eq_ask_of_prepare_eq h
  rw [Attempt.leaves, hcall]
  exact reg.ask_collaborators tuning r a.route.step

variable [RecordStore σ]

/-- A step with a record that has not ended is a genuine attempt and its write. -/
theorem exists_attempt (reg : Registry σ κ) (tuning : Tuning) {r : Record} (now : Instant)
    (ht : r.state.isTerminal = false) :
    ∃ a : Attempt, a.IsGenuine κ tuning ∧ a.read = r ∧ a.now = now ∧
      (∀ call ∈ a.call, call.IsReplyOf reg.collaborators) ∧
      (reg.advance tuning r now).1 =
        a.told (RecordStore.compareAndSwap reg.store a.next a.read.version).1 ∧
      (reg.advance tuning r now).2.store =
        (RecordStore.compareAndSwap reg.store a.next a.read.version).2 ∧
      (reg.advance tuning r now).2.collaborators = a.leaves reg.collaborators := by
  obtain ⟨a, ha, hread, hnow, hgen, hreply⟩ := reg.exists_prepare_eq tuning now ht
  have hstore := prepare_store ha
  have hservices := prepare_collaborators ha
  obtain ⟨htold, hwritten, hkept⟩ := (reg.prepare tuning r now).2.commit_eq_told a
  rw [hstore] at htold hwritten
  rw [hservices] at hkept
  refine ⟨a, hgen, hread, hnow, hreply, ?_⟩
  rw [advance_eq, ha]
  exact ⟨htold, hwritten, hkept⟩

/-- A worker makes an attempt with each record of a batch, in its order, and is done with it when
its write is answered. It gets through the batch unless an answer is an error that ends the
cycle. -/
theorem exists_series (tuning : Tuning) (clock : Nat → Instant) (batch : List Record) :
    ∀ (reg : Registry σ κ) (n : Nat) (report : CycleReport),
      (∀ r ∈ batch, r.state.isTerminal = false) →
      ∃ attempts, Attempt.Series tuning clock n reg.collaborators attempts
          (advanceAll tuning clock n report batch reg).2.collaborators ∧
        (advanceAll tuning clock n report batch reg).2.store =
          (Attempt.writeAll reg.store attempts).2 ∧
        attempts.map Attempt.read <+: batch ∧
        ((∃ outcomes : List Outcome, attempts.map Attempt.read = batch ∧
            (Attempt.writeAll reg.store attempts).1 = outcomes.map .ok ∧
            (advanceAll tuning clock n report batch reg).1 =
              .ok (report.including (stalledIn tuning clock n batch) outcomes)) ∨
          ∃ (outcomes : List Outcome) (e : StoreError),
            (Attempt.writeAll reg.store attempts).1 = outcomes.map .ok ++ [.error e] ∧
            (advanceAll tuning clock n report batch reg).1 = .error e) := by
  -- On the batch, for all registries, readings and reports that may have come before.
  induction batch with
  | nil =>
    intro reg n report _
    exact ⟨[], .nil n reg.collaborators, rfl, List.prefix_refl [], Or.inl ⟨[], rfl, rfl, rfl⟩⟩
  | cons r rest ih =>
    intro reg n report hopen
    have hrest : ∀ q ∈ rest, q.state.isTerminal = false :=
      fun q hq => hopen q (List.mem_cons_of_mem r hq)
    let isStalled := r.isStalled (clock n) tuning.stallThreshold
    obtain ⟨hstore, hservices⟩ := reg.noteStalled_eq r isStalled
    obtain ⟨a, hgen, rfl, hnow, hreply, htold, hwritten, hleft⟩ :=
      (reg.noteStalled r isStalled).exists_attempt tuning (clock n) (hopen r List.mem_cons_self)
    rw [hstore] at htold hwritten
    rw [hservices] at hreply hleft
    cases hstep : (reg.noteStalled a.read isStalled).advance tuning a.read (clock n) with
    | mk result stepped =>
      rw [hstep] at htold hwritten hleft
      simp only at htold hwritten hleft
      cases result with
      | error e =>
        -- The error ends the loop, and this attempt was the last.
        have hall : advanceAll tuning clock n report (a.read :: rest) reg =
            (.error e, stepped) := by
          simp only [advanceAll, isStalled] at hstep ⊢
          rw [hstep]
        rw [hall]
        refine ⟨[a], .cons hgen hnow hreply ?_, ?_, ?_, Or.inr ⟨[], e, ?_, rfl⟩⟩
        · rw [← hleft]
          exact .nil (n + 1) stepped.collaborators
        · simp only [Attempt.writeAll, hwritten]
        · exact List.prefix_append [a.read] rest
        · simp only [Attempt.writeAll, ← htold, List.map_nil, List.nil_append]
      | ok outcome =>
        let counted := (report.countStalled isStalled).count outcome
        have hall : advanceAll tuning clock n report (a.read :: rest) reg =
            advanceAll tuning clock (n + 1) counted rest stepped := by
          simp only [advanceAll, isStalled, counted] at hstep ⊢
          rw [hstep]
        obtain ⟨attempts, hseries, hafter, hinOrder, hend⟩ := ih stepped (n + 1) counted hrest
        rw [hleft] at hseries
        rw [hwritten] at hafter hend
        rw [hall]
        refine ⟨a :: attempts, .cons hgen hnow hreply hseries, hafter,
          List.cons_prefix_cons.2 ⟨rfl, hinOrder⟩, ?_⟩
        rcases hend with ⟨outcomes, hread, htolds, hreport⟩ | ⟨outcomes, e, htolds, herror⟩
        · refine Or.inl ⟨outcome :: outcomes, ?_, ?_, ?_⟩
          · rw [List.map_cons, hread]
          · simp only [Attempt.writeAll, ← htold, htolds, List.map_cons]
          · rw [hreport, stalledIn_cons, CycleReport.including_cons]
        · refine Or.inr ⟨outcome :: outcomes, e, ?_, herror⟩
          simp only [Attempt.writeAll, ← htold, htolds, List.map_cons, List.cons_append]

/-- A worker gets through the records of a batch as they are stored, in a store that always
answers. -/
theorem exists_sweep (reg : Registry Store κ) (tuning : Tuning) (clock : Nat → Instant) (n : Nat)
    {batch : List Record} (hfresh : ∀ r ∈ batch, reg.store.find? r.id = some r)
    (hopen : ∀ r ∈ batch, r.state.isTerminal = false) (hnodup : (batch.map Record.id).Nodup)
    (leased : Nat) :
    ∃ (attempts : List Attempt) (report : CycleReport) (after : Registry Store κ)
      (became : Record → Record),
      advanceAll tuning clock n { leased } batch reg = (.ok report, after) ∧
        report.leased = leased ∧ attempts.map Attempt.read = batch ∧
        Attempt.Series tuning clock n reg.collaborators attempts after.collaborators ∧
        Attempt.Replaces attempts reg.store after.store became := by
  obtain ⟨attempts, hseries, hstore, hinOrder, hend⟩ :=
    exists_series tuning clock batch reg n { leased } hopen
  have hread : ∀ a ∈ attempts, reg.store.find? a.read.id = some a.read := by
    intro a ha
    exact hfresh a.read (hinOrder.subset (List.mem_map.2 ⟨a, ha, rfl⟩))
  obtain ⟨t, became, hall, hreplaces⟩ := Attempt.exists_writeAll_eq attempts reg.store hread
    (fun a ha => (hseries.isGenuine a ha).next_id) (Attempt.nodup_of_prefix hnodup hinOrder)
  rw [hall] at hstore hend
  simp only at hstore hend
  rcases hend with ⟨outcomes, hbatch, -, hreport⟩ | ⟨outcomes, e, htold, -⟩
  · refine ⟨attempts, _, _, became, Prod.ext hreport rfl, ?_, hbatch, hseries, ?_⟩
    · exact (CycleReport.including_spec leased _ outcomes).1
    · rwa [hstore]
  · -- No write is refused here.
    have hmem : Except.error e ∈ attempts.map (fun a => Except.ok a.outcome) := by
      rw [htold]
      exact List.mem_append_right _ List.mem_cons_self
    obtain ⟨a, -, ha⟩ := List.mem_map.1 hmem
    cases ha

end Registry

end Onboarding
