import Onboarding.Proofs.Cycles

/-!
Rounds of cycles. A round takes as many cycles as it needs to lease all records once: in each of
them, a whole batch of those goes that have been in their state since before the round.
-/

namespace Onboarding

namespace Store

def IsSettled (s : Store) : Prop := ∀ r ∈ s.records, r.state.isTerminal = true

def IsReady (s : Store) (now : Instant) : Prop :=
  ∀ r ∈ s.records, r.state.isTerminal = false → r.stateTimestamp < now ∧ r.nextAttemptAt ≤ now

def Bounded (b : Budgets) (s : Store) : Prop := ∀ r ∈ s.records, b.Bounds r

def InRound (rank : Record → Nat) (total : Nat) (s : Store) (start : Instant) (rounds : Nat) :
    Prop :=
  -- A record that was written since the present round began has gone down by one step more.
  ∀ r ∈ s.records, r.state.isTerminal = false → rank r + rounds ≤ total ∧
    (start ≤ r.stateTimestamp → rank r + (rounds + 1) ≤ total)

end Store

/-- A rank that goes down with each attempt made with a record of some kind, until it has ended. -/
structure Descent (κ : Type) [Collaborators κ] (tuning : Tuning) (kind : Record → Prop)
    (rank : Record → Nat) (total : Nat) : Prop where
  keeps : ∀ a : Attempt, a.IsGenuine κ tuning → kind a.read → kind a.written
  lowers : ∀ a : Attempt, a.IsGenuine κ tuning → kind a.read → rank a.written < rank a.read
  pos : ∀ r, kind r → r.state.isTerminal = false → 0 < rank r
  le_total : ∀ r, rank r ≤ total

/-- Readings of the clock for so many cycles, each of them later than the one before it. What was
made of a record of some kind at the one is due at the next. -/
structure Pace (κ : Type) [Collaborators κ] (tuning : Tuning) (kind : Record → Prop)
    (clock : Nat → Instant) (m : Nat) : Prop where
  lt : ∀ n, n + 1 < m → clock n < clock (n + 1)
  due : ∀ n, n + 1 < m → ∀ a : Attempt, a.IsGenuine κ tuning → kind a.read → a.now = clock n →
    a.written.nextAttemptAt ≤ clock (n + 1)

namespace Store.Turn

variable {κ : Type} [Collaborators κ] {tuning : Tuning} {now later start : Instant}
  {batch : List Record} {s t : Store} {became : Record → Record} {kind : Record → Prop}
  {rank : Record → Nat} {total rounds limit : Nat}

/-- The copy in the batch is the record itself. -/
theorem exists_became_eq (h : s.Turn κ tuning now batch t became)
    (hbatch : ∀ r ∈ batch, r ∈ s.records) {r : Record} (hr : r ∈ s.records)
    (hid : r.id ∈ batch.map Record.id) :
    ∃ a : Attempt, a.IsGenuine κ tuning ∧ a.read = r ∧ a.now = now ∧ became r = a.written := by
  obtain ⟨p, hp, hpid⟩ := List.mem_map.1 hid
  have hpr : p = r := Store.eq_of_mem_of_id_eq (hbatch p hp) hr hpid
  rw [← hpr]
  exact h.leased p hp

theorem mem_cases (h : s.Turn κ tuning now batch t became) (hbatch : ∀ r ∈ batch, r ∈ s.records)
    {q : Record} (hq : q ∈ t.records) :
    q ∈ s.records ∨
      ∃ a : Attempt, a.IsGenuine κ tuning ∧ a.read ∈ s.records ∧ a.now = now ∧ q = a.written := by
  rw [h.records] at hq
  obtain ⟨r, hr, rfl⟩ := List.mem_map.1 hq
  by_cases hid : r.id ∈ batch.map Record.id
  · obtain ⟨a, hgen, rfl, hnow, hw⟩ := h.exists_became_eq hbatch hr hid
    exact Or.inr ⟨a, hgen, hr, hnow, hw⟩
  · rw [h.others r hid]
    exact Or.inl hr

theorem isSettled (h : s.Turn κ tuning now batch t became) (hbatch : ∀ r ∈ batch, r ∈ s.records)
    (hs : s.IsSettled) : t.IsSettled := by
  intro q hq
  rcases h.mem_cases hbatch hq with hq | ⟨a, hgen, hread, -, -⟩
  · exact hs q hq
  · have hopen := hgen.leadsTo.not_isTerminal
    rw [hs a.read hread] at hopen
    cases hopen

theorem forall_kind (h : s.Turn κ tuning now batch t became)
    (hbatch : ∀ r ∈ batch, r ∈ s.records)
    (hkeep : ∀ a : Attempt, a.IsGenuine κ tuning → kind a.read → kind a.written)
    (hs : ∀ r ∈ s.records, kind r) : ∀ r ∈ t.records, kind r := by
  intro q hq
  rcases h.mem_cases hbatch hq with hq | ⟨a, hgen, hread, -, rfl⟩
  · exact hs q hq
  · exact hkeep a hgen (hs a.read hread)

theorem map_eq {β : Type} {f : Record → β} (h : s.Turn κ tuning now batch t became)
    (hf : ∀ a : Attempt, a.IsGenuine κ tuning → f a.written = f a.read)
    (hbatch : ∀ r ∈ batch, r ∈ s.records) : t.records.map f = s.records.map f := by
  rw [h.records, List.map_map]
  refine List.map_congr_left fun r hr => ?_
  by_cases hid : r.id ∈ batch.map Record.id
  · obtain ⟨a, hgen, hread, -, hw⟩ := h.exists_became_eq hbatch hr hid
    rw [Function.comp_apply, hw, hf a hgen, hread]
  · rw [Function.comp_apply, h.others r hid]

theorem isReady (h : s.Turn κ tuning now batch t became) (hbatch : ∀ r ∈ batch, r ∈ s.records)
    (hkind : ∀ r ∈ s.records, kind r) (hs : s.IsReady now) (hlt : now < later)
    (hdue : ∀ a : Attempt, a.IsGenuine κ tuning → kind a.read → a.now = now →
      a.written.nextAttemptAt ≤ later) : t.IsReady later := by
  intro q hq hopen
  rcases h.mem_cases hbatch hq with hq | ⟨a, hgen, hread, hnow, rfl⟩
  · obtain ⟨hbefore, hle⟩ := hs q hq hopen
    exact ⟨lt_trans hbefore hlt, le_trans hle (le_of_lt hlt)⟩
  · refine ⟨?_, hdue a hgen (hkind a.read hread) hnow⟩
    rw [hgen.written_at.1, hnow]
    exact hlt

/-- A cycle keeps the ranks of all records within the bounds of its round. -/
theorem inRound (h : s.Turn κ tuning now batch t became) (hbatch : ∀ r ∈ batch, r ∈ s.records)
    (hd : Descent κ tuning kind rank total) (hkind : ∀ r ∈ s.records, kind r)
    (hs : s.InRound rank total start rounds) : t.InRound rank total start rounds := by
  intro q hq hopen
  rcases h.mem_cases hbatch hq with hq | ⟨a, hgen, hread, -, rfl⟩
  · exact hs q hq hopen
  · -- Whatever it was before, it has one step less to go now, and bears the time of this cycle.
    have hless := hd.lowers a hgen (hkind a.read hread)
    obtain ⟨hle, -⟩ := hs a.read hread hgen.leadsTo.not_isTerminal
    exact ⟨by omega, fun _ => by omega⟩

/-- A cycle gets on with its round by a whole batch, until there is nothing left of it. -/
theorem countP_waitsSince (h : s.Turn κ tuning now (s.lease limit now) t became)
    (hs : s.IsReady now) (hstart : start ≤ now) :
    t.records.countP (·.waitsSince start) = s.records.countP (·.waitsSince start) - limit := by
  -- Everything that has not ended is due, so that the batch takes those that wait for longest.
  rw [← Store.countP_not_leased fun r hr hopen => Record.isDue_iff.2 ⟨hopen, (hs r hr hopen).2⟩,
    h.records, List.countP_map]
  refine List.countP_congr ?_
  intro r hr
  by_cases hid : r.id ∈ (s.lease limit now).map Record.id
  · obtain ⟨a, hgen, -, hnow, hw⟩ :=
      h.exists_became_eq (fun _ hp => (Store.mem_of_mem_lease hp).1) hr hid
    -- It was written in this round, and so has not been in its state since before.
    have hnot : ¬(became r).waitsSince start = true := by
      rw [hw, Record.waitsSince_iff, hgen.written_at.1, hnow]
      exact fun hwaits => absurd hwaits.2 (not_lt_of_ge hstart)
    simp [hid, hnot]
  · simp [h.others r hid, hid]

end Store.Turn

theorem Budgets.stepsLeft_le_total (b : Budgets) (r : Record) : b.stepsLeft r ≤ b.total := by
  cases hs : r.state <;> simp [stepsLeft, left, total, hs] <;> omega

theorem Budgets.Bounds.stepsLeft_pos {b : Budgets} {r : Record} (h : b.Bounds r)
    (ht : r.state.isTerminal = false) : 0 < b.stepsLeft r := by
  cases hs : r.state with
  | onboardingInitiated | verifyingIdentity =>
    have hlt : r.retryCount < b.identity := h .identity (by rw [hs]; rfl)
    simp only [stepsLeft, left, hs]
    omega
  | verifyingCredentials =>
    have hlt : r.retryCount < b.credentials := h .credentials (by rw [hs]; rfl)
    simp only [stepsLeft, left, hs]
    omega
  | evaluatingPolicy =>
    have hlt : r.retryCount < b.policy := h .policy (by rw [hs]; rfl)
    simp only [stepsLeft, left, hs]
    omega
  | onboarded | policyDenied | verificationFailed =>
    rw [hs] at ht
    cases ht

namespace Registry

variable {κ : Type} [Collaborators κ]

def afterCycles (tuning : Tuning) (clock : Nat → Instant) (reg : Registry Store κ) :
    Nat → Registry Store κ
  | 0 => reg
  | n + 1 => ((afterCycles tuning clock reg n).cycle tuning fun _ => clock n).2

section

variable (tuning : Tuning) (clock : Nat → Instant) (reg : Registry Store κ)

/-- Each cycle succeeds, and turns the store. -/
theorem exists_turn (n : Nat) : ∃ report became,
    (reg.afterCycles tuning clock n).cycle tuning (fun _ => clock n) =
        (.ok report, reg.afterCycles tuning clock (n + 1)) ∧
      report.leased =
        ((reg.afterCycles tuning clock n).store.lease tuning.batchSize (clock n)).length ∧
      (reg.afterCycles tuning clock n).store.Turn κ tuning (clock n)
        ((reg.afterCycles tuning clock n).store.lease tuning.batchSize (clock n))
        (reg.afterCycles tuning clock (n + 1)).store became := by
  obtain ⟨report, after, became, hcycle, hleased, hturn⟩ :=
    (reg.afterCycles tuning clock n).exists_cycle_eq tuning (clock n)
  have hafter : reg.afterCycles tuning clock (n + 1) = after := by rw [afterCycles, hcycle]
  exact ⟨report, became, by rw [hcycle, hafter], hleased, by rw [hafter]; exact hturn⟩

/-- What no attempt changes in a record stays, and so does the order of the records. -/
theorem map_afterCycles {β : Type} {f : Record → β}
    (hf : ∀ a : Attempt, a.IsGenuine κ tuning → f a.written = f a.read) (n : Nat) :
    (reg.afterCycles tuning clock n).store.records.map f = reg.store.records.map f := by
  induction n with
  | zero => rfl
  | succ n ih =>
    obtain ⟨-, became, -, -, hturn⟩ := reg.exists_turn tuning clock n
    rw [hturn.map_eq hf fun _ hr => (Store.mem_of_mem_lease hr).1, ih]

theorem length_afterCycles (n : Nat) :
    (reg.afterCycles tuning clock n).store.records.length = reg.store.records.length := by
  have hmap := reg.map_afterCycles tuning clock (f := fun _ => ()) (fun _ _ => rfl) n
  have hlength := congrArg List.length hmap
  rwa [List.length_map, List.length_map] at hlength

end

variable {tuning : Tuning} {clock : Nat → Instant} {reg : Registry Store κ} {m n : Nat}

theorem isSettled_afterCycles_of_le {k : Nat} (h : (reg.afterCycles tuning clock n).store.IsSettled)
    (hk : n ≤ k) : (reg.afterCycles tuning clock k).store.IsSettled := by
  induction k, hk using Nat.le_induction with
  | base => exact h
  | succ k _ ih =>
    obtain ⟨-, _, -, -, hturn⟩ := reg.exists_turn tuning clock k
    exact hturn.isSettled (fun _ hr => (Store.mem_of_mem_lease hr).1) ih

variable {kind : Record → Prop} {rank : Record → Nat} {total : Nat}

/-- A kind of records that attempts keep is kept by any number of cycles. -/
theorem forall_afterCycles
    (hkeep : ∀ a : Attempt, a.IsGenuine κ tuning → kind a.read → kind a.written)
    (h : ∀ r ∈ reg.store.records, kind r) (n : Nat) :
    ∀ r ∈ (reg.afterCycles tuning clock n).store.records, kind r := by
  induction n with
  | zero => exact h
  | succ n ih =>
    obtain ⟨-, _, -, -, hturn⟩ := reg.exists_turn tuning clock n
    exact hturn.forall_kind (fun _ hr => (Store.mem_of_mem_lease hr).1) hkeep ih

end Registry

variable {κ : Type} [Collaborators κ] {tuning : Tuning} {clock : Nat → Instant}
  {reg : Registry Store κ} {kind : Record → Prop} {rank : Record → Nat} {total m n : Nat}

/-- With readings of the clock at this pace, all that has not ended is due in each cycle. -/
theorem Pace.isReady_afterCycles (hp : Pace κ tuning kind clock m)
    (hkeep : ∀ a : Attempt, a.IsGenuine κ tuning → kind a.read → kind a.written)
    (hkind : ∀ r ∈ reg.store.records, kind r) (hfirst : reg.store.IsReady (clock 0)) (hn : n < m) :
    (reg.afterCycles tuning clock n).store.IsReady (clock n) := by
  induction n with
  | zero => exact hfirst
  | succ n ih =>
    obtain ⟨-, _, -, -, hturn⟩ := reg.exists_turn tuning clock n
    exact hturn.isReady (fun _ hr => (Store.mem_of_mem_lease hr).1)
      (Registry.forall_afterCycles hkeep hkind n) (ih (by omega)) (hp.lt n hn) (hp.due n hn)

theorem Pace.clock_le {k : Nat} (hp : Pace κ tuning kind clock m) (hnk : n ≤ k) (hk : k < m) :
    clock n ≤ clock k := by
  induction k, hnk using Nat.le_induction with
  | base => exact le_rfl
  | succ k _ ih => exact le_trans (ih (by omega)) (le_of_lt (hp.lt k hk))

namespace Descent

variable (hd : Descent κ tuning kind rank total) (hp : Pace κ tuning kind clock m)
  (hkind : ∀ r ∈ reg.store.records, kind r) (hfirst : reg.store.IsReady (clock 0))

include hd hp hkind hfirst

/-- Within a round that began with the `n`-th cycle. -/
theorem inRound_afterCycles {rounds : Nat}
    (hround : (reg.afterCycles tuning clock n).store.InRound rank total (clock n) rounds)
    (j : Nat) (hj : n + j ≤ m) :
    (reg.afterCycles tuning clock (n + j)).store.InRound rank total (clock n) rounds ∧
      (reg.afterCycles tuning clock (n + j)).store.records.countP (·.waitsSince (clock n)) =
        (reg.afterCycles tuning clock n).store.records.countP (·.waitsSince (clock n)) -
          j * tuning.batchSize := by
  induction j with
  | zero => exact ⟨hround, by simp⟩
  | succ j ih =>
    obtain ⟨hin, hcount⟩ := ih (by omega)
    obtain ⟨-, _, -, -, hturn⟩ := reg.exists_turn tuning clock (n + j)
    have hready := hp.isReady_afterCycles hd.keeps hkind hfirst (show n + j < m by omega)
    have hstart := hp.clock_le (Nat.le_add_right n j) (show n + j < m by omega)
    refine ⟨hturn.inRound (fun _ hr => (Store.mem_of_mem_lease hr).1) hd
      (Registry.forall_afterCycles hd.keeps hkind (n + j)) hin, ?_⟩
    rw [← Nat.add_assoc, hturn.countP_waitsSince hready hstart, hcount, Nat.succ_mul]
    omega

variable {perRound : Nat} (hcover : reg.store.records.length ≤ perRound * tuning.batchSize)

include hcover

/-- In as many cycles as a round takes, each record that has not ended takes a step. -/
theorem rank_add_le (rounds : Nat) (hm : rounds * perRound ≤ m) :
    ∀ r ∈ (reg.afterCycles tuning clock (rounds * perRound)).store.records,
      r.state.isTerminal = false → rank r + rounds ≤ total := by
  induction rounds with
  | zero =>
    intro r _ _
    exact hd.le_total r
  | succ rounds ih =>
    intro r hr hopen
    rw [Nat.succ_mul] at hm hr
    have hlength := reg.length_afterCycles tuning clock
    have hsome : 0 < reg.store.records.length := by
      rw [← hlength (rounds * perRound + perRound)]
      exact List.length_pos_of_mem hr
    have hper : 0 < perRound := by
      rcases Nat.eq_zero_or_pos perRound with h | h
      · rw [h, Nat.zero_mul] at hcover
        omega
      · exact h
    have hready := hp.isReady_afterCycles hd.keeps hkind hfirst
      (show rounds * perRound < m by omega)
    -- When a round begins, nothing has been written in it.
    have hround : (reg.afterCycles tuning clock (rounds * perRound)).store.InRound rank total
        (clock (rounds * perRound)) rounds := by
      intro q hq hqopen
      refine ⟨ih (by omega) q hq hqopen, fun hstart => ?_⟩
      exact absurd (hready q hq hqopen).1 (not_lt_of_ge hstart)
    obtain ⟨hin, hcount⟩ := hd.inRound_afterCycles hp hkind hfirst hround perRound hm
    have hall := List.countP_le_length (p := fun r => r.waitsSince (clock (rounds * perRound)))
      (l := (reg.afterCycles tuning clock (rounds * perRound)).store.records)
    rw [hlength] at hall
    have hnone : (reg.afterCycles tuning clock (rounds * perRound + perRound)).store.records.countP
        (·.waitsSince (clock (rounds * perRound))) = 0 := by omega
    -- Nobody waits since before the round, so this record was written in it.
    refine (hin r hr hopen).2 (le_of_not_gt fun hbefore => ?_)
    exact List.countP_eq_zero.1 hnone r hr (Record.waitsSince_iff.2 ⟨hopen, hbefore⟩)

/-- After as many rounds as the rank is high, all have ended. -/
theorem isSettled_afterCycles (hm : total * perRound ≤ m) :
    (reg.afterCycles tuning clock (total * perRound)).store.IsSettled := by
  intro r hr
  by_contra hopen
  have ht : r.state.isTerminal = false := by simpa using hopen
  have hless := hd.rank_add_le hp hkind hfirst hcover total hm r hr ht
  have hpos := hd.pos r (Registry.forall_afterCycles hd.keeps hkind _ r hr) ht
  omega

end Descent

/-- Each attempt takes one of the steps that the budgets leave to a registration. -/
theorem Budgets.descent (hb : tuning.budgets.Admissible) :
    Descent κ tuning tuning.budgets.Bounds tuning.budgets.stepsLeft tuning.budgets.total where
  keeps _ ha hbound := ha.bounds_written hb hbound
  lowers _ ha hbound := ha.stepsLeft_lt hbound
  pos _ hbound ht := hbound.stepsLeft_pos ht
  le_total r := tuning.budgets.stepsLeft_le_total r

/-- Nothing waits for longer than the longest wait. -/
theorem Backoff.pace (hgap : ∀ n, n + 1 < m → tuning.backoff.Spaced (clock n) (clock (n + 1))) :
    Pace κ tuning kind clock m where
  lt n hn := (hgap n hn).lt
  due n hn a ha _ hnow := by
    have hin : ¬a.now.Overruns tuning.backoff.longest := hnow ▸ (hgap n hn).not_overruns
    calc a.written.nextAttemptAt ≤ a.now.after tuning.backoff.longest := ha.nextAttemptAt_le hin
      _ = (clock n).after tuning.backoff.longest := by rw [hnow]
      _ ≤ clock (n + 1) := (hgap n hn).after_le

namespace Registry

theorem isReady_afterCycles (hfirst : reg.store.IsReady (clock 0))
    (hgap : ∀ n, n + 1 < m → tuning.backoff.Spaced (clock n) (clock (n + 1))) (hn : n < m) :
    (reg.afterCycles tuning clock n).store.IsReady (clock n) := by
  have hp : Pace κ tuning (fun _ => True) clock m := Backoff.pace hgap
  exact hp.isReady_afterCycles (fun _ _ _ => trivial) (fun _ _ => trivial) hfirst hn

theorem isSettled_afterCycles (hb : tuning.budgets.Admissible)
    (hbound : reg.store.Bounded tuning.budgets) (hfirst : reg.store.IsReady (clock 0))
    (hgap : ∀ n, n + 1 < m → tuning.backoff.Spaced (clock n) (clock (n + 1))) {perRound : Nat}
    (hcover : reg.store.records.length ≤ perRound * tuning.batchSize)
    (hm : tuning.budgets.total * perRound ≤ m) :
    (reg.afterCycles tuning clock (tuning.budgets.total * perRound)).store.IsSettled :=
  (Budgets.descent hb).isSettled_afterCycles (Backoff.pace hgap) hbound hfirst hcover hm

end Registry

end Onboarding
