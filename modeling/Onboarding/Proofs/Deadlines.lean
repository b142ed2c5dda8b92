import Onboarding.Proofs.Cycles
import Onboarding.Proofs.Schedule

/-!
Deadlines. A record that failed in passing waits, and the deadline is looked at when a batch is
leased; the attempt is made later, and its result is written later still, when others may have
written.
-/

namespace Onboarding

namespace Attempt

def isRetry (a : Attempt) : Bool :=
  match a.outcome with
  | .retryScheduled .. => true
  | _ => false

variable {κ : Type} [Collaborators κ] {tuning : Tuning} {a : Attempt}

/-- A record waits if it is to be tried again, by the count of its failures, and not otherwise. -/
theorem IsGenuine.isRetry_cases (hb : ∀ step, tuning.budgets.maxAttempts step ≤ Number.max32)
    (h : a.IsGenuine κ tuning) :
    (a.isRetry = false ∧ a.written.nextAttemptAt = a.now) ∨
    (a.isRetry = true ∧ a.written.state.isTerminal = false ∧
      a.written.nextAttemptAt = tuning.backoff.retryAt a.now a.written.retryCount) := by
  cases h.course with
  | begun _ _ ho hn | resolved _ _ _ _ _ ho hn | verified _ _ _ _ _ _ _ ho hn
  | allowed _ _ _ _ _ _ ho hn | denied _ _ _ _ _ _ _ ho hn | withoutIdentity _ _ _ ho hn
  | withoutClaims _ _ _ ho hn | refused _ _ _ _ _ _ _ ho hn | exhausted _ _ _ _ _ _ _ _ ho hn =>
    left
    rw [isRetry, ho, written, hn]
    exact ⟨rfl, rfl⟩
  | deferred call fallback detail _ hq hf _ hx ho hn =>
    right
    obtain ⟨-, rfl⟩ := h.route_eq hq hf
    rw [Budgets.isExhausted_iff, Nat.not_le] at hx
    -- A budget is a count itself, so that the count of failures has not stopped below it.
    have hcount : a.read.failures = a.read.retryCount + 1 := by
      have hmax := hb a.route.step
      rw [Record.failures] at hx ⊢
      omega
    have hopen : call.phase.retry.isTerminal = false := by cases call.phase <;> rfl
    refine ⟨by rw [isRetry, ho], ?_, ?_⟩
    · rw [written_state, hn]
      exact hopen
    · rw [written_retryCount, written, hn]
      change tuning.backoff.retryAt a.now a.read.failures = _
      rw [hcount]
      rfl

end Attempt

/-- The record waits, but its wait leads out of the leap second that ends the calendar. -/
def Record.IsCutShort (backoff : Backoff) (waits : Bool) (r : Record) : Prop :=
  waits = true ∧ r.stateTimestamp.Overruns (backoff.pause r.retryCount)

/-- The times of a record that was made by these attempts are in order, where no wait is cut short.
It waits for the next attempt only, and exactly, after one that failed in passing. -/
structure Record.Timely (backoff : Backoff) (past : List Attempt) (r : Record) : Prop where
  created : (∀ a ∈ past, ¬a.written.IsCutShort backoff a.isRetry) → r.createdAt ≤ r.stateTimestamp
  waited_iff : r.stateTimestamp ≤ r.nextAttemptAt ↔
    ¬r.IsCutShort backoff (past.getLast?.any Attempt.isRetry)
  bounded : ¬r.stateTimestamp.Overruns backoff.longest →
    r.nextAttemptAt ≤ r.stateTimestamp.after backoff.longest
  due : r.nextAttemptAt = if past.getLast?.any Attempt.isRetry
    then backoff.retryAt r.stateTimestamp r.retryCount else r.stateTimestamp
  ended : r.state.isTerminal = true → r.nextAttemptAt = r.stateTimestamp

/-- A wait does not end before it begins, exactly if it is not cut short. -/
theorem Record.waited_iff_of_due {backoff : Backoff} {waits : Bool} {r : Record}
    (h : r.nextAttemptAt = if waits then backoff.retryAt r.stateTimestamp r.retryCount
      else r.stateTimestamp) :
    r.stateTimestamp ≤ r.nextAttemptAt ↔ ¬r.IsCutShort backoff waits := by
  rw [h, IsCutShort]
  cases waits with
  | false => simp
  | true =>
    rw [if_pos rfl, Backoff.retryAt, Backoff.retryAtWith, Instant.le_after_iff, Backoff.pause]
    simp

namespace History

theorem getLast?_any_snoc (past : List Attempt) (a : Attempt) :
    (past ++ [a]).getLast?.any Attempt.isRetry = a.isRetry := by
  rw [List.getLast?_append]
  rfl

variable {κ : Type} [Collaborators κ] {tuning : Tuning} {past : List Attempt} {r : Record}

/-- The wait of a record is cut short only if that of its last attempt was. -/
theorem not_isCutShort (h : History κ tuning past r)
    (hp : ∀ a ∈ past, ¬a.written.IsCutShort tuning.backoff a.isRetry) :
    ¬r.IsCutShort tuning.backoff (past.getLast?.any Attempt.isRetry) := by
  cases h with
  | new id did now =>
    rintro ⟨hwaits, -⟩
    cases hwaits
  | @step past a =>
    rw [getLast?_any_snoc]
    exact hp a (List.mem_append_right past (List.mem_singleton_self a))

/-- The times of a record are in order if no attempt of its history was made too early. -/
theorem timely (hb : ∀ step, tuning.budgets.maxAttempts step ≤ Number.max32)
    (h : History κ tuning past r) (hp : ∀ a ∈ past, a.read.nextAttemptAt ≤ a.now) :
    r.Timely tuning.backoff past := by
  induction h with
  | new id did now =>
    exact {
      created := fun _ => le_rfl
      waited_iff := Record.waited_iff_of_due rfl
      bounded := Instant.le_after_iff.2
      due := rfl
      ended := fun _ => rfl }
  | @step past a h ha ih =>
    have hread := ih fun b hb => hp b (List.mem_append_left [a] hb)
    have hstamp := ha.written_at.1
    have hnow := hp a (List.mem_append_right past (List.mem_singleton_self a))
    -- Whether there is a wait depends on the attempt that was made last.
    have hlast := getLast?_any_snoc past a
    have hdue : a.written.nextAttemptAt = if a.isRetry
        then tuning.backoff.retryAt a.written.stateTimestamp a.written.retryCount
        else a.written.stateTimestamp := by
      rw [hstamp]
      rcases ha.isRetry_cases hb with ⟨hretry, hdue⟩ | ⟨hretry, -, hdue⟩ <;> rw [hretry] <;>
        exact hdue
    exact {
      created := by
        intro hkept
        have hkept' : ∀ b ∈ past, ¬b.written.IsCutShort tuning.backoff b.isRetry :=
          fun b hb => hkept b (List.mem_append_left [a] hb)
        calc a.written.createdAt
            = a.read.createdAt := ha.leadsTo.createdAt
          _ ≤ a.read.stateTimestamp := hread.created hkept'
          _ ≤ a.read.nextAttemptAt := hread.waited_iff.2 (h.not_isCutShort hkept')
          _ ≤ a.now := hnow
          _ = a.written.stateTimestamp := hstamp.symm
      waited_iff := by
        rw [hlast]
        exact Record.waited_iff_of_due hdue
      bounded := by
        rw [hstamp]
        exact ha.nextAttemptAt_le
      due := by
        rw [hlast]
        exact hdue
      ended := by
        intro hended
        rcases ha.isRetry_cases hb with ⟨-, hdue⟩ | ⟨-, hopen, -⟩
        · exact hdue.trans hstamp.symm
        · rw [hopen] at hended
          cases hended }

end History

namespace World

variable {κ : Type} [Collaborators κ] {tuning : Tuning} {k : κ} {w v : World κ}
  {deeds : List Deed} {a : Attempt}

/-- In cycles, nothing is called that was not due when it was leased. -/
theorem Run.nextAttemptAt_le_of_called (h : Run tuning (initial k) deeds w) (hc : InCycles deeds)
    (ha : .called a ∈ deeds) : a.read.nextAttemptAt ≤ a.now := by
  obtain ⟨before, after, hd⟩ := List.append_of_mem ha
  obtain ⟨limit, now, batch, hleased, hread, hnow⟩ := hc before a after hd
  -- At the lease the record was due, and the attempt was made no earlier than that.
  obtain ⟨earlier, later, hd'⟩ := List.append_of_mem hleased
  have hsplit : deeds = earlier ++ .leased limit now batch :: (later ++ .called a :: after) := by
    rw [hd, hd', List.append_assoc, List.cons_append]
  obtain ⟨u, x, -, hm, -⟩ := h.split hsplit
  cases hm with
  | lease =>
    have hdue := (Store.mem_of_mem_lease hread).2
    exact le_trans (Record.isDue_iff.1 hdue).2 hnow

/-- An attempt is written only after its call. -/
theorem Run.called_of_swapped (h : Run tuning (initial k) deeds w) (ha : .swapped a ∈ deeds) :
    .called a ∈ deeds := by
  obtain ⟨before, after, hd⟩ := List.append_of_mem ha
  obtain ⟨u, x, hu, hm, -⟩ := h.split hd
  cases hm with
  | swap hmem _ =>
    -- What is under way before a write has been called before it.
    obtain ⟨past, -, hsub⟩ := hu.documented.attempts a (by rw [hmem]; simp)
    rw [hd]
    exact List.mem_append_left _ (hsub.subset (List.mem_append_right _ (by simp)))

/-- Waits are kept, and none is too long. Where all work is done in cycles, within which the clock
does not go back, a record is replaced no earlier than its next attempt was due, and that was no
earlier than the record itself. The times of every record are in order, it waits no longer than the
longest wait, and it does so by the count of its failures after an attempt that failed in passing,
and not at all after any other, or before the first. The one exception is a wait from within the
leap second that ends the calendar to beyond it: that ends before it has begun. -/
theorem Run.waits_are_kept (hb : ∀ step, tuning.budgets.maxAttempts step ≤ Number.max32)
    (h : Run tuning (initial k) deeds w) (hc : InCycles deeds) :
    (∀ a v, Move tuning w (.swapped a) v →
      w.registry.store.find? a.next.id = some a.read ∧
      v.registry.store.find? a.next.id = some a.written ∧
      (a.read.stateTimestamp ≤ a.read.nextAttemptAt ↔ ¬a.read.IsCutShort tuning.backoff
        ((swapsOn a.read.id deeds).getLast?.any Attempt.isRetry)) ∧
      a.read.nextAttemptAt ≤ a.written.stateTimestamp) ∧
    ∀ r ∈ w.registry.store.records, r.Timely tuning.backoff (swapsOn r.id deeds) := by
  have htimely : ∀ r ∈ w.registry.store.records,
      r.Timely tuning.backoff (swapsOn r.id deeds) := by
    intro r hr
    apply (h.history hr).timely hb
    intro a ha
    obtain ⟨deed, hdeed, hswap⟩ := List.mem_filterMap.1 (List.mem_filter.1 ha).1
    have hswapped : deed = .swapped a := by
      cases deed <;> cases hswap
      rfl
    rw [hswapped] at hdeed
    exact h.nextAttemptAt_le_of_called hc (h.called_of_swapped hdeed)
  refine ⟨?_, htimely⟩
  intro a v hm
  obtain ⟨hread, hwritten, -⟩ := h.coherent.find?_of_swapped hm
  obtain ⟨hgen, hmem, -⟩ := h.coherent.of_swapped hm
  -- The write itself is no call, so the call is among the deeds before it.
  have hlast : .called a ∈ deeds ++ [.swapped a] := (h.snoc hm).called_of_swapped (by simp)
  have hcalled : .called a ∈ deeds := by simpa using hlast
  refine ⟨hread, hwritten, (htimely a.read hmem).waited_iff, ?_⟩
  rw [hgen.written_at.1]
  exact h.nextAttemptAt_le_of_called hc hcalled

/-- A registration is handed in, picked up, and waits after its first question. -/
theorem slow_services_wait : ∃ deeds w r,
    Run {} (initial (⟨.ofSeconds 11⟩ : Bureau .welcome)) deeds w ∧ InCycles deeds ∧
      r ∈ w.registry.store.records ∧ r.stateTimestamp < r.nextAttemptAt ∧
      ¬r.IsCutShort {} ((swapsOn r.id deeds).getLast?.any Attempt.isRetry) ∧
      r.nextAttemptAt ≤ r.stateTimestamp.after (.ofSeconds 300) ∧
      r.nextAttemptAt = Backoff.retryAt {} r.stateTimestamp 1 := by
  obtain ⟨deeds, w, _, hrun, hw, hc, -⟩ := exists_works_drain_submit {}
    (⟨.ofSeconds 11⟩ : Bureau .welcome) "did:web:participant" ⟨"1"⟩
    Instant.everySecond 2
  have hb : ∀ step, ({} : Tuning).budgets.maxAttempts step ≤ Number.max32 := by
    intro step
    cases step <;> decide
  have hwaiting : w.registry.store.records.map Record.state = [.onboardingInitiated] ∧
      ∀ r ∈ w.registry.store.records, r.retryCount = 1 ∧ r.stateTimestamp < r.nextAttemptAt ∧
        r.stateTimestamp ≤ Instant.last := by
    rw [hw]
    decide +kernel
  obtain ⟨hstates, hall⟩ := hwaiting
  obtain ⟨r, hr, -⟩ := Store.exists_mem_of_map_state_eq hstates
  obtain ⟨hcount, hlt, hlast⟩ := hall r hr
  have htimely := (hrun.waits_are_kept hb hc).2 r hr
  have hbounded := htimely.bounded (Instant.not_overruns_of_le_last hlast _)
  refine ⟨deeds, w, r, hrun, hc, hr, hlt, htimely.waited_iff.1 hlt.le, hbounded, ?_⟩
  have hdue := htimely.due
  split_ifs at hdue with hretry
  · rw [hdue, hcount]
  · exact absurd hdue (ne_of_gt hlt)

/-- Within the leap second that ends the calendar, a first question that fails is to be asked again
before the time of the failure. -/
theorem slow_services_wait_backwards : ∃ deeds w r,
    Run {} (initial (⟨.ofSeconds 11⟩ : Bureau .welcome)) deeds w ∧ InCycles deeds ∧
      r ∈ w.registry.store.records ∧ r.nextAttemptAt < r.stateTimestamp := by
  obtain ⟨deeds, w, _, hrun, hw, hc, -⟩ := exists_works_drain_submit {}
    (⟨.ofSeconds 11⟩ : Bureau .welcome) "did:web:participant" ⟨"1"⟩ (fun _ => .closing) 2
  have hwaiting : w.registry.store.records.map Record.state = [.onboardingInitiated] ∧
      ∀ r ∈ w.registry.store.records, r.nextAttemptAt < r.stateTimestamp := by
    rw [hw]
    decide +kernel
  obtain ⟨hstates, hall⟩ := hwaiting
  obtain ⟨r, hr, -⟩ := Store.exists_mem_of_map_state_eq hstates
  exact ⟨deeds, w, r, hrun, hc, hr, hall r hr⟩

end World

end Onboarding
