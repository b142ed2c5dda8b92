import Onboarding.Proofs.Admission
import Onboarding.Proofs.Phases
import Onboarding.Proofs.Refusals
import Onboarding.Proofs.Runs

namespace Onboarding

def Outcome.Describes (old new : Record) : Outcome → Prop
  | .advanced source target => source = old.state ∧ new.state = target ∧ target ∈ source.successors
  | .retryScheduled state attempt due =>
    new.state = state ∧ new.retryCount = attempt ∧ new.nextAttemptAt = due ∧
      attempt = old.retryCount + 1
  | .failed source target detail =>
    source = old.state ∧ new.state = target ∧ target.isFailure = true ∧
      new.errorDetail = some detail
  | .conflict | .skipped => False

/-- The outcome of a step with a record is what has happened to the store. The step skips the record
exactly if that has ended or is not stored, it has a conflict exactly if another version is stored,
and otherwise the record is written. -/
structure Outcome.IsTrueOf (outcome : Outcome) (r : Record) (before after : Store) : Prop where
  skipped : outcome = .skipped ↔ r.state.isTerminal = true ∨ before.find? r.id = none
  conflict : outcome = .conflict ↔ r.state.isTerminal = false ∧
    ∃ stored, before.find? r.id = some stored ∧ stored.version ≠ r.version
  kept : outcome.isWritten = false → after = before
  written : outcome.isWritten = true → ∃ next, after.find? r.id = some next ∧
    next.version = r.version + 1 ∧ next.retryCount ≤ Number.max32 ∧ outcome.Describes r next ∧
    ∀ id, id ≠ r.id → after.find? id = before.find? id

theorem Outcome.skipped_isTrueOf {r : Record} (s : Store)
    (h : r.state.isTerminal = true ∨ s.find? r.id = none) :
    Outcome.skipped.IsTrueOf r s s where
  skipped := iff_of_true rfl h
  conflict := by
    refine iff_of_false (by simp) ?_
    rintro ⟨hopen, stored, hfound, -⟩
    simp [hopen, hfound] at h
  kept := fun _ => rfl
  written := by simp [isWritten]

def Event.isIllegalTransition : Event → Bool
  | .illegalTransition .. => true
  | _ => false

/-- An attempt that does not use up its budget is counted in full. -/
theorem Record.failures_eq_of_not_isExhausted {r : Record} {budgets : Budgets} {step : Step}
    (hmax : budgets.maxAttempts step ≤ Number.max32)
    (hx : ¬budgets.isExhausted step r.failures = true) :
    r.failures = r.retryCount + 1 ∧ r.retryCount + 1 ≤ Number.max32 := by
  rw [Budgets.isExhausted_iff, Record.failures] at hx
  rw [Record.failures]
  omega

namespace Attempt

variable {κ : Type} [Collaborators κ] {tuning : Tuning} {a : Attempt}

/-- The outcome of a genuine attempt tells what it has made of the record. -/
theorem IsGenuine.describes (hbudgets : ∀ step, tuning.budgets.maxAttempts step ≤ Number.max32)
    (h : a.IsGenuine κ tuning) : a.outcome.Describes a.read a.written := by
  obtain ⟨-, hfall⟩ := Route.edges_of_of?_eq_some h.routed
  cases h.course with
  | begun hs _ ho hn | resolved _ _ hs _ _ ho hn | verified _ _ _ hs _ _ _ ho hn
  | allowed _ _ hs _ _ _ ho hn =>
    rw [ho, written, hn]
    exact ⟨rfl, rfl, by rw [hs]; decide⟩
  | denied _ _ _ hs _ _ _ ho hn | withoutIdentity hs _ _ ho hn | withoutClaims hs _ _ ho hn =>
    rw [ho, written, hn]
    exact ⟨rfl, rfl, rfl, rfl⟩
  | refused _ fallback _ _ _ hf _ ho hn | exhausted _ fallback _ _ _ hf _ _ ho hn =>
    rw [ho, written, hn]
    exact ⟨rfl, rfl, (hfall fallback hf).2.2, rfl⟩
  | deferred _ fallback _ _ _ hf _ hx ho hn =>
    have hcount := (Record.failures_eq_of_not_isExhausted (hbudgets a.route.step) hx).1
    rw [ho, written, hn]
    exact ⟨rfl, hcount.symm, rfl, hcount⟩

/-- The count of failed attempts stays within its bounds, whatever it was. -/
theorem IsGenuine.retryCount_written_le
    (hbudgets : ∀ step, tuning.budgets.maxAttempts step ≤ Number.max32)
    (h : a.IsGenuine κ tuning) (hcount : a.read.retryCount ≤ Number.max32) :
    a.written.retryCount ≤ Number.max32 := by
  cases h.course with
  | begun _ _ _ hn | denied _ _ _ _ _ _ _ _ hn | withoutIdentity _ _ _ _ hn
  | withoutClaims _ _ _ _ hn | refused _ _ _ _ _ _ _ _ hn =>
    rw [written_retryCount, hn]
    exact hcount
  | resolved _ _ _ _ _ _ hn | verified _ _ _ _ _ _ _ _ hn | allowed _ _ _ _ _ _ _ hn =>
    rw [written_retryCount, hn]
    exact Nat.zero_le _
  | exhausted _ _ _ _ _ _ _ _ _ hn =>
    rw [written_retryCount, hn]
    exact Nat.min_le_right _ _
  | deferred _ _ _ _ _ _ _ hx _ hn =>
    rw [written_retryCount, hn]
    exact (Record.failures_eq_of_not_isExhausted (hbudgets a.route.step) hx).2

/-- The call of an attempt is the one that the state of its record raises. -/
theorem IsGenuine.isAbout (h : a.IsGenuine κ tuning) : ∀ call ∈ a.call, call.IsAbout a.read := by
  intro call hcall
  cases h.course with
  | begun _ hc | withoutIdentity _ _ hc | withoutClaims _ _ hc =>
    rw [hc] at hcall
    cases hcall
  | resolved _ _ hs hc =>
    rw [hc] at hcall
    cases hcall
    exact ⟨hs, rfl⟩
  | verified identity _ _ hs hi hc =>
    rw [hc] at hcall
    cases hcall
    exact ⟨hs, rfl, identity, hi, rfl⟩
  | allowed _ _ hs hv hc | denied _ _ _ hs hv hc =>
    rw [hc] at hcall
    cases hcall
    exact ⟨hs, hv⟩
  | refused _ _ _ hc hq | exhausted _ _ _ hc hq | deferred _ _ _ hc hq =>
    rw [hc] at hcall
    cases hcall
    exact hq

/-- Nobody is asked about a registration that has not begun. -/
theorem IsGenuine.call_eq_none (h : a.IsGenuine κ tuning)
    (hs : a.read.state = .onboardingInitiated) : a.call = none := by
  cases hc : a.call with
  | none => rfl
  | some call =>
    have hasking := (h.isAbout call (by rw [hc]; rfl)).state_eq
    rw [hs] at hasking
    cases call <;> cases hasking

/-- The write of an attempt finds no record, another version, or the version that was read. -/
theorem swap_cases (s : Store) (hid : a.next.id = a.read.id) :
    (s.find? a.read.id = none ∧
        RecordStore.compareAndSwap s a.next a.read.version = (.error (.notFound a.next.id), s)) ∨
      ∃ stored, s.find? a.read.id = some stored ∧
        (stored.version ≠ a.read.version ∧
            RecordStore.compareAndSwap s a.next a.read.version =
              (.error (.conflict a.next.id a.read.version stored.version), s) ∨
          stored.version = a.read.version ∧
            RecordStore.compareAndSwap s a.next a.read.version =
              (.ok a.written, s.replace a.written)) := by
  have hfind : s.find? a.next.id = s.find? a.read.id := by rw [hid]
  simp only [RecordStore.compareAndSwap, Store.compareAndSwap, hfind]
  cases hf : s.find? a.read.id with
  | none => exact Or.inl ⟨rfl, rfl⟩
  | some stored =>
    refine Or.inr ⟨stored, rfl, ?_⟩
    by_cases hv : stored.version = a.read.version
    · exact Or.inr ⟨hv, by simp only [hv, if_true]; rfl⟩
    · exact Or.inl ⟨hv, by simp only [hv, if_false]⟩

/-- What a worker is told about an attempt is what became of its write. -/
theorem IsGenuine.exists_told (hbudgets : ∀ step, tuning.budgets.maxAttempts step ≤ Number.max32)
    (h : a.IsGenuine κ tuning) (hcount : a.read.retryCount ≤ Number.max32) (s : Store) :
    ∃ outcome,
      a.told (RecordStore.compareAndSwap s a.next a.read.version).1 = .ok outcome ∧
        outcome.IsTrueOf a.read s (RecordStore.compareAndSwap s a.next a.read.version).2 := by
  have hopen := h.leadsTo.not_isTerminal
  rcases a.swap_cases s h.next_id with ⟨hnone, hswap⟩ | ⟨stored, hfound, hcases⟩
  · rw [hswap]
    exact ⟨.skipped, rfl, Outcome.skipped_isTrueOf s (Or.inr hnone)⟩
  · rcases hcases with ⟨hversion, hswap⟩ | ⟨hversion, hswap⟩
    · rw [hswap]
      refine ⟨.conflict, rfl, ?_, iff_of_true rfl ⟨hopen, stored, hfound, hversion⟩,
        fun _ => rfl, by simp [Outcome.isWritten]⟩
      exact iff_of_false (by simp) (by simp [hopen, hfound])
    · -- The write succeeds, and the outcome is none of the other two.
      rw [hswap]
      have hwritten := h.isWritten_outcome
      refine ⟨a.outcome, rfl, ?_, ?_, ?_, ?_⟩
      · refine iff_of_false ?_ (by simp [hopen, hfound])
        intro ho
        rw [ho] at hwritten
        cases hwritten
      · refine iff_of_false ?_ (by simp [hfound, hversion])
        intro ho
        rw [ho] at hwritten
        cases hwritten
      · intro hnot
        rw [hwritten] at hnot
        cases hnot
      · intro _
        have hname : a.written.id = a.read.id := h.next_id
        refine ⟨a.written, ?_, rfl, h.retryCount_written_le hbudgets hcount, h.describes hbudgets,
          ?_⟩
        · rw [Store.find?_replace, if_pos hname.symm, hfound]
          rfl
        · intro id hid
          rw [Store.find?_replace, if_neg (by rwa [hname])]

end Attempt

namespace Registry

section

variable {σ κ : Type}

theorem exists_commit_events [RecordStore σ] (reg : Registry σ κ) (read next : Record) (step : Step)
    (outcome : Outcome) : ∃ noted,
      (reg.commit read next step outcome).2.events = reg.events ++ noted ∧
        ∀ e ∈ noted, e.isIllegalTransition = false := by
  unfold commit
  obtain ⟨answer, s⟩ := RecordStore.compareAndSwap reg.store next read.version
  cases answer with
  | ok stored =>
    refine ⟨committedEvents stored step outcome, rfl, ?_⟩
    cases outcome <;> simp [committedEvents, Event.isIllegalTransition]
  | error e =>
    cases e with
    | conflict | notFound => exact ⟨_, rfl, by simp [Event.isIllegalTransition]⟩
    | alreadyExists | unavailable => exact ⟨[], by simp, by simp⟩

variable [Collaborators κ]

/-- While a question is asked, nothing but mismatches of claims is noted. -/
theorem exists_ask_events (reg : Registry σ κ) (tuning : Tuning) (r : Record) (step : Step) :
    ∃ mismatches : List Mismatch,
      (reg.ask tuning r step).2.events = reg.events ++ mismatches.map .claimMismatch := by
  have hnone : reg.events = reg.events ++ ([] : List Mismatch).map .claimMismatch := by simp
  have hawait {ε α : Type} (reply : Reply ε α) (k : κ) : ∃ mismatches : List Mismatch,
      (reg.await tuning reply k).events = reg.events ++ mismatches.map .claimMismatch := by
    cases hlate : reply.isLate tuning with
    | true => exact ⟨[], by simp only [await, hlate, if_true, List.map_nil]⟩
    | false => exact ⟨reply.mismatches, by simp only [await, hlate, if_false, Bool.false_eq_true]⟩
  cases step with
  | pickUp => exact ⟨[], hnone⟩
  | resolveIdentity => exact hawait _ _
  | verifyCredentials =>
    cases hi : r.identity with
    | none => exact ⟨[], by simpa only [ask, hi] using hnone⟩
    | some identity => simpa only [ask, hi] using hawait _ _
  | evaluatePolicy =>
    cases hv : r.verifiedClaims with
    | none => exact ⟨[], by simpa only [ask, hv] using hnone⟩
    | some claims => simpa only [ask, hv] using hawait _ _

/-- A step always has an edge to go along. -/
theorem exists_advance_events [RecordStore σ] (reg : Registry σ κ) (tuning : Tuning) (r : Record)
    (now : Instant) :
    ∃ noted, (reg.advance tuning r now).2.events = reg.events ++ noted ∧
      ∀ e ∈ noted, e.isIllegalTransition = false := by
  rw [advance_eq]
  cases ht : r.state.isTerminal with
  | true =>
    rw [reg.prepare_of_isTerminal tuning now ht]
    exact ⟨[], by simp, by simp⟩
  | false =>
    obtain ⟨a, ha, -⟩ := reg.exists_prepare_eq tuning now ht
    obtain ⟨mismatches, hasked⟩ := reg.exists_ask_events tuning r a.route.step
    rw [← (eq_ask_of_prepare_eq ha).1] at hasked
    obtain ⟨noted, hcommit, hlegal⟩ :=
      (reg.prepare tuning r now).2.exists_commit_events a.read a.next a.route.step a.outcome
    rw [ha]
    -- First what was seen on the way to the answer, then what came of the write.
    refine ⟨mismatches.map .claimMismatch ++ noted, ?_, ?_⟩
    · simp only [hcommit, hasked, List.append_assoc]
    · intro e he
      rcases List.mem_append.1 he with he | he
      · obtain ⟨mismatch, -, rfl⟩ := List.mem_map.1 he
        rfl
      · exact hlegal e he

end

section

variable {κ : Type} [Collaborators κ]

/-- What a refusing store does not write, it leaves as it is. -/
theorem store_of_not_isWritten (reg : Registry RefusingStore κ) (tuning : Tuning) (r : Record)
    (now : Instant)
    (h : ∀ outcome, (reg.advance tuning r now).1 = .ok outcome → outcome.isWritten = false) :
    (reg.advance tuning r now).2.store.store = reg.store.store := by
  cases ht : r.state.isTerminal with
  | true => rw [advance_eq, reg.prepare_of_isTerminal tuning now ht]
  | false =>
    obtain ⟨a, hgen, -, -, -, htold, hstore, -⟩ := reg.exists_attempt tuning now ht
    rw [hstore]
    rw [htold] at h
    cases hswap : RecordStore.compareAndSwap reg.store a.next a.read.version with
    | mk answer after =>
      cases answer with
      | error e => exact RefusingStore.store_of_swap_eq_error hswap
      | ok stored =>
        rw [hswap] at h
        have hnot := h a.outcome rfl
        rw [hgen.isWritten_outcome] at hnot
        cases hnot

/-- A step tells the truth. It is taken with any record, whether or not it is the one that is
stored. It makes one call at most, and none for a record that has ended or not begun, and never
lacks an edge to go along; and it answers with an outcome that is true of the store before and after
it. What was not written leaves the store as it is, also where the store may refuse to write. -/
theorem advance_answers_truly (reg : Registry Store κ) {tuning : Tuning} {r : Record}
    (now : Instant) (hbudgets : ∀ step, tuning.budgets.maxAttempts step ≤ Number.max32)
    (hcount : r.retryCount ≤ Number.max32) :
    (∃ (outcome : Outcome) (after : Registry Store κ) (call : Option Call) (noted : List Event),
      reg.advance tuning r now = (.ok outcome, after) ∧
      outcome.IsTrueOf r reg.store after.store ∧
      (∀ c ∈ call, c.IsAbout r ∧ c.IsReplyOf reg.collaborators) ∧
      (r.state.isTerminal = true ∨ r.state = .onboardingInitiated → call = none) ∧
      after.collaborators = call.elim reg.collaborators (Call.leaves reg.collaborators) ∧
      after.events = reg.events ++ noted ∧ ∀ e ∈ noted, e.isIllegalTransition = false) ∧
    ∀ refusing : Registry RefusingStore κ,
      (∀ outcome, (refusing.advance tuning r now).1 = .ok outcome → outcome.isWritten = false) →
      (refusing.advance tuning r now).2.store.store = refusing.store.store := by
  refine ⟨?_, fun refusing => refusing.store_of_not_isWritten tuning r now⟩
  obtain ⟨noted, hnoted, hlegal⟩ := reg.exists_advance_events tuning r now
  -- A record that has ended is not touched; any other is attempted.
  cases ht : r.state.isTerminal with
  | true =>
    have hskip : reg.advance tuning r now = (.ok .skipped, reg) := by
      rw [advance_eq, reg.prepare_of_isTerminal tuning now ht]
    rw [hskip] at hnoted
    exact ⟨.skipped, reg, none, noted, hskip, Outcome.skipped_isTrueOf reg.store (Or.inl ht),
      by simp, fun _ => rfl, rfl, hnoted, hlegal⟩
  | false =>
    obtain ⟨a, hgen, rfl, -, hreply, htold, hstore, hservices⟩ := reg.exists_attempt tuning now ht
    obtain ⟨outcome, hanswer, htrue⟩ := hgen.exists_told hbudgets hcount reg.store
    rw [← htold] at hanswer
    rw [← hstore] at htrue
    refine ⟨outcome, _, a.call, noted, Prod.ext hanswer rfl, htrue,
      fun c hc => ⟨hgen.isAbout c hc, hreply c hc⟩, ?_, hservices, hnoted, hlegal⟩
    rintro (hended | hinitiated)
    · cases hended
    · exact hgen.call_eq_none hinitiated

/-- A registration that was just submitted is begun with, and the answer says so. -/
theorem first_step_is_true :
    let reg := ((World.initial (⟨.zero⟩ : Bureau .welcome)).registry.submit "did:web:participant"
      ⟨"1"⟩ .epoch).2
    reg.store.records.length = 1 ∧ ∀ r ∈ reg.store.records, r.retryCount ≤ Number.max32 ∧
      ∃ outcome after, reg.advance {} r .epoch = (.ok outcome, after) ∧
        outcome.IsTrueOf r reg.store after.store ∧ outcome ≠ .skipped := by
  intro reg
  have hbudgets : ∀ step, ({} : Tuning).budgets.maxAttempts step ≤ Number.max32 := by
    intro step
    cases step <;> decide
  have hfacts : ∀ r ∈ reg.store.records,
      r.retryCount ≤ Number.max32 ∧ r.state.isTerminal = false := by decide +kernel
  refine ⟨by decide +kernel, ?_⟩
  intro r hr
  obtain ⟨hcount, hopen⟩ := hfacts r hr
  obtain ⟨⟨outcome, after, _, _, hstep, htrue, -⟩, -⟩ :=
    reg.advance_answers_truly .epoch hbudgets hcount
  refine ⟨hcount, outcome, after, hstep, htrue, ?_⟩
  intro hskipped
  have hfound : reg.store.find? r.id = some r := Store.find?_eq_some_iff.2 ⟨hr, rfl⟩
  have hnot := htrue.skipped.1 hskipped
  simp [hopen, hfound] at hnot

end

end Registry

end Onboarding
