import Onboarding.Proofs.Setbacks
import Onboarding.Proofs.Swaps
import Onboarding.Proofs.Verdicts

namespace Onboarding

inductive Verdicts.CutShort (verdicts : Verdicts) (id : ParticipantId) (did : Did)
    (reason : String) : Step → Ending → Prop
  -- Up to the step that gave up, the ending is the reference.
  | resolution : CutShort verdicts id did reason .resolveIdentity
      ⟨.verificationFailed, some reason, none, none⟩
  | verification {identity : IdentityDescriptor} (hres : verdicts.resolve did = .ok identity) :
    CutShort verdicts id did reason .verifyCredentials
      ⟨.verificationFailed, some reason, some identity, none⟩
  | evaluation {identity : IdentityDescriptor} {claims : VerifiedClaims}
      (hres : verdicts.resolve did = .ok identity)
      (hver : verdicts.verify id identity.presentedClaims = .ok claims) :
    CutShort verdicts id did reason .evaluatePolicy
      ⟨.policyDenied, some reason, some identity, some claims⟩

/-- The record has ended as the reference does, with something left of each budget, or else where
a budget was used up, with the reason of the last failure. -/
def Verdicts.Settles (verdicts : Verdicts) (tuning : Tuning) (past : List Attempt) (r : Record) :
    Prop :=
  (r.ending = verdicts.reference r.id r.did ∧
    ∀ step, tuning.Grants step (setbacks tuning step past)) ∨
  ∃ step detail,
    verdicts.CutShort r.id r.did (Record.exhaustion (tuning.budgets.maxAttempts step) detail) step
      r.ending ∧
    setbacks tuning step past = tuning.budgets.maxAttempts step ∧
    ∃ a call, past.getLast? = some a ∧ a.call = some call ∧ call.step = step ∧
      call.answer tuning = .failed .transient detail

structure Unresolved (tuning : Tuning) (past : List Attempt) (r : Record) : Prop where
  identity : r.identity = none
  verifiedClaims : r.verifiedClaims = none
  counted : setbacks tuning .resolveIdentity past = r.retryCount
  unverified : setbacks tuning .verifyCredentials past = 0
  undecided : setbacks tuning .evaluatePolicy past = 0
  granted : ∀ step, tuning.Grants step (setbacks tuning step past)

structure Unverified (tuning : Tuning) (verdicts : Verdicts) (past : List Attempt) (r : Record) :
    Prop where
  resolved : ∃ identity, verdicts.resolve r.did = .ok identity ∧ r.identity = some identity
  verifiedClaims : r.verifiedClaims = none
  counted : setbacks tuning .verifyCredentials past = r.retryCount
  undecided : setbacks tuning .evaluatePolicy past = 0
  granted : ∀ step, tuning.Grants step (setbacks tuning step past)

structure Undecided (tuning : Tuning) (verdicts : Verdicts) (past : List Attempt) (r : Record) :
    Prop where
  verified : ∃ identity claims, verdicts.resolve r.did = .ok identity ∧
    verdicts.verify r.id identity.presentedClaims = .ok claims ∧ r.identity = some identity ∧
    r.verifiedClaims = some claims
  counted : setbacks tuning .evaluatePolicy past = r.retryCount
  granted : ∀ step, tuning.Grants step (setbacks tuning step past)

def Standing (tuning : Tuning) (verdicts : Verdicts) (past : List Attempt) (r : Record) : Prop :=
  match r.state with
  | .onboardingInitiated | .verifyingIdentity => Unresolved tuning past r
  | .verifyingCredentials => Unverified tuning verdicts past r
  | .evaluatingPolicy => Undecided tuning verdicts past r
  | .onboarded | .policyDenied | .verificationFailed => verdicts.Settles tuning past r

section

variable {tuning : Tuning} {verdicts : Verdicts} {past : List Attempt} {r : Record}

theorem standing_of_isTerminal (hs : r.state.isTerminal = true) :
    Standing tuning verdicts past r ↔ verdicts.Settles tuning past r := by
  unfold Standing
  cases h : r.state <;> rw [h] at hs <;> first | rfl | cases hs

theorem standing_onboardingInitiated (hs : r.state = .onboardingInitiated) :
    Standing tuning verdicts past r ↔ Unresolved tuning past r := by
  rw [Standing, hs]

theorem standing_verifyingIdentity (hs : r.state = .verifyingIdentity) :
    Standing tuning verdicts past r ↔ Unresolved tuning past r := by
  rw [Standing, hs]

theorem standing_verifyingCredentials (hs : r.state = .verifyingCredentials) :
    Standing tuning verdicts past r ↔ Unverified tuning verdicts past r := by
  rw [Standing, hs]

theorem standing_evaluatingPolicy (hs : r.state = .evaluatingPolicy) :
    Standing tuning verdicts past r ↔ Undecided tuning verdicts past r := by
  rw [Standing, hs]

theorem standing_new (hb : ∀ step, 1 ≤ tuning.budgets.maxAttempts step) (id : ParticipantId)
    (did : Did) (now : Instant) : Standing tuning verdicts [] (.new id did now) := by
  refine (standing_onboardingInitiated rfl).2 ⟨rfl, rfl, rfl, rfl, rfl, ?_⟩
  intro step _
  exact hb step

variable {κ : Type} [Collaborators κ] {a : Attempt} {call : Call} {detail : String} {k : κ}

/-- Wherever a question is asked, giving up would end the registration in a way that is the
reference up to there. -/
theorem Standing.cutShort (h : Standing tuning verdicts past r) (hq : call.IsAbout r) :
    setbacks tuning call.step past = r.retryCount ∧
    (∀ step, tuning.Grants step (setbacks tuning step past)) ∧
    ∀ reason, verdicts.CutShort r.id r.did reason call.step
      ⟨call.fallback.onPermanent, some reason, r.identity, r.verifiedClaims⟩ := by
  cases call with
  | resolution did reply =>
    have hu := (standing_verifyingIdentity hq.1).1 h
    refine ⟨hu.counted, hu.granted, ?_⟩
    intro reason
    rw [hu.identity, hu.verifiedClaims]
    exact .resolution
  | verification id claims reply =>
    have hu := (standing_verifyingCredentials hq.1).1 h
    refine ⟨hu.counted, hu.granted, ?_⟩
    intro reason
    obtain ⟨identity, hres, hi⟩ := hu.resolved
    rw [hi, hu.verifiedClaims]
    exact .verification hres
  | evaluation claims reply =>
    have hu := (standing_evaluatingPolicy hq.1).1 h
    refine ⟨hu.counted, hu.granted, ?_⟩
    intro reason
    obtain ⟨identity, claims, hres, hver, hi, hv⟩ := hu.verified
    rw [hi, hv]
    exact .evaluation hres hver

/-- A refusal for good is the one in which the reference ends. -/
theorem Standing.reference_of_permanent (h : Standing tuning verdicts past r)
    (hg : verdicts.Govern κ tuning) (hq : call.IsAbout r) (hk : call.IsReplyOf k)
    (ha : call.answer tuning = .failed .permanent detail) :
    verdicts.reference r.id r.did =
      ⟨call.fallback.onPermanent, some detail, r.identity, r.verifiedClaims⟩ := by
  cases call with
  | resolution did reply =>
    obtain ⟨hs, rfl⟩ := hq
    cases hk
    have hu := (standing_verifyingIdentity hs).1 h
    obtain ⟨e, he, -, rfl⟩ := (hg.resolve k r.did).eq_error ha (fun _ => nofun)
    rw [Verdicts.reference, he, hu.identity, hu.verifiedClaims]
    rfl
  | verification id claims reply =>
    obtain ⟨hs, rfl, identity, hi, rfl⟩ := hq
    cases hk
    have hu := (standing_verifyingCredentials hs).1 h
    obtain ⟨identity', hres, hi'⟩ := hu.resolved
    rw [hi] at hi'
    cases hi'
    obtain ⟨e, he, -, rfl⟩ :=
      (hg.verify k r.id identity.presentedClaims).eq_error ha (fun _ => nofun)
    rw [Verdicts.reference, hres, hi, hu.verifiedClaims]
    simp only [he]
    rfl
  | evaluation claims reply =>
    -- A decision that cannot be had may always be had later.
    cases hk
    have hdecision : ∀ d, Answer.ofDecision d ≠ .failed .permanent detail := by
      intro d
      cases d <;> nofun
    obtain ⟨e, -, hkind, -⟩ := (hg.evaluate k claims).eq_error ha hdecision
    cases e <;> cases hkind

theorem Standing.deferred (h : Standing tuning verdicts past a.read) (hq : call.IsAbout a.read)
    (hc : a.call = some call) (ha : call.answer tuning = .failed .transient detail)
    (hx : ¬tuning.budgets.isExhausted call.step a.read.failures = true) {due : Instant}
    (hn : a.next = a.read.deferred call.fallback.onTransient detail due a.now) :
    Standing tuning verdicts (past ++ [a]) a.written := by
  obtain ⟨hcount, hgranted, -⟩ := h.cutShort hq
  have hgrants := grants_of_not_isExhausted hcount hx hgranted hc ha
  have hw : a.written = { a.read.deferred call.fallback.onTransient detail due a.now with
      version := a.read.version + 1 } := by rw [Attempt.written, hn]
  have hadd := fun step => @setbacks_snoc_of_transient tuning past a call detail step hc ha
  rw [hw]
  -- Only the step that failed has failed once more; those behind it have not been tried.
  cases call with
  | resolution did reply =>
    have hu := (standing_verifyingIdentity hq.1).1 h
    refine (standing_onboardingInitiated rfl).2
      ⟨hu.identity, hu.verifiedClaims, ?_, ?_, ?_, hgrants⟩
    · rw [hadd, hu.counted]
      rfl
    · rw [hadd, hu.unverified]
      rfl
    · rw [hadd, hu.undecided]
      rfl
  | verification id claims reply =>
    have hu := (standing_verifyingCredentials hq.1).1 h
    refine (standing_verifyingCredentials rfl).2 ⟨hu.resolved, hu.verifiedClaims, ?_, ?_, hgrants⟩
    · rw [hadd, hu.counted]
      rfl
    · rw [hadd, hu.undecided]
      rfl
  | evaluation claims reply =>
    have hu := (standing_evaluatingPolicy hq.1).1 h
    refine (standing_evaluatingPolicy rfl).2 ⟨hu.verified, ?_, hgrants⟩
    rw [hadd, hu.counted]
    rfl

/-- A failure that uses up the budget settles the record at the step where it gave up. -/
theorem Standing.exhausted (h : Standing tuning verdicts past a.read) (hq : call.IsAbout a.read)
    (hc : a.call = some call) (ha : call.answer tuning = .failed .transient detail)
    (hx : tuning.budgets.isExhausted call.step a.read.failures = true)
    (hn : a.next = { a.read with retryCount := a.read.failures }.ended call.fallback.onPermanent
      (Record.exhaustion a.read.failures detail) a.now) :
    verdicts.Settles tuning (past ++ [a]) a.written := by
  obtain ⟨hcount, hgranted, hcut⟩ := h.cutShort hq
  have hleft := hgranted call.step
  rw [hcount] at hleft
  obtain ⟨hall, hlast⟩ := failures_eq_of_isExhausted hleft hx
  refine Or.inr ⟨call.step, detail, ?_, ?_, a, call, List.getLast?_concat, hc, rfl, ha⟩
  · have hending : a.written.ending = ⟨call.fallback.onPermanent,
        some (Record.exhaustion a.read.failures detail), a.read.identity,
        a.read.verifiedClaims⟩ := by
      rw [Attempt.written, hn]
      rfl
    rw [hending, hall, Attempt.written, hn]
    exact hcut _
  · rw [setbacks_snoc_of_transient call.step hc ha, if_pos rfl, hcount]
    exact hlast

theorem Standing.begun (h : Standing tuning verdicts past a.read)
    (hs : a.read.state = .onboardingInitiated) (hc : a.call = none)
    (hn : a.next = a.read.moved .verifyingIdentity a.now) :
    Standing tuning verdicts (past ++ [a]) a.written := by
  have hu := (standing_onboardingInitiated hs).1 h
  have hsame := fun step => @setbacks_snoc_of_call_eq_none tuning past a step hc
  rw [Attempt.written, hn]
  refine (standing_verifyingIdentity rfl).2 ⟨hu.identity, hu.verifiedClaims, ?_, ?_, ?_, ?_⟩
  · rw [hsame]
    exact hu.counted
  · rw [hsame]
    exact hu.unverified
  · rw [hsame]
    exact hu.undecided
  · intro step
    rw [hsame]
    exact hu.granted step

theorem Standing.resolved (h : Standing tuning verdicts past a.read)
    (hg : verdicts.Govern κ tuning) {reply : Reply VerificationError IdentityDescriptor}
    {identity : IdentityDescriptor} (hs : a.read.state = .verifyingIdentity)
    (hc : a.call = some (.resolution a.read.did reply))
    (hk : (Call.resolution a.read.did reply).IsReplyOf k) (hb : reply.Brings tuning identity)
    (hn : a.next = { a.read with identity := some identity }.passed .verifyingCredentials a.now) :
    Standing tuning verdicts (past ++ [a]) a.written := by
  cases hk
  have hu := (standing_verifyingIdentity hs).1 h
  have hverdict := (hg.resolve k a.read.did).eq_ok hb
  have hsame := fun step => @setbacks_snoc_of_not_transient tuning past a _ step hc
    (fun detail he => by cases (hb.inTime_eq _ _ _).symm.trans he)
  rw [Attempt.written, hn]
  refine (standing_verifyingCredentials rfl).2
    ⟨⟨identity, hverdict, rfl⟩, hu.verifiedClaims, ?_, ?_, ?_⟩
  · rw [hsame]
    exact hu.unverified
  · rw [hsame]
    exact hu.undecided
  · intro step
    rw [hsame]
    exact hu.granted step

theorem Standing.verified (h : Standing tuning verdicts past a.read)
    (hg : verdicts.Govern κ tuning) {identity : IdentityDescriptor}
    {reply : Reply VerificationError VerifiedClaims} {claims : VerifiedClaims}
    (hs : a.read.state = .verifyingCredentials) (hi : a.read.identity = some identity)
    (hc : a.call = some (.verification a.read.id identity.presentedClaims reply))
    (hk : (Call.verification a.read.id identity.presentedClaims reply).IsReplyOf k)
    (hb : reply.Brings tuning claims)
    (hn : a.next = { a.read with verifiedClaims := some claims }.passed .evaluatingPolicy a.now) :
    Standing tuning verdicts (past ++ [a]) a.written := by
  cases hk
  have hu := (standing_verifyingCredentials hs).1 h
  have hverdict := (hg.verify k a.read.id identity.presentedClaims).eq_ok hb
  have hsame := fun step => @setbacks_snoc_of_not_transient tuning past a _ step hc
    (fun detail he => by cases (hb.inTime_eq _ _ _).symm.trans he)
  obtain ⟨identity', hres, hi'⟩ := hu.resolved
  rw [hi] at hi'
  cases hi'
  rw [Attempt.written, hn]
  refine (standing_evaluatingPolicy rfl).2 ⟨⟨identity, claims, hres, hverdict, hi, rfl⟩, ?_, ?_⟩
  · rw [hsame]
    exact hu.undecided
  · intro step
    rw [hsame]
    exact hu.granted step

/-- A decision settles the record as the reference. -/
theorem Standing.decided (h : Standing tuning verdicts past a.read)
    (hg : verdicts.Govern κ tuning) {claims : VerifiedClaims} {reply : Reply PolicyError Decision}
    {decision : Decision} (hs : a.read.state = .evaluatingPolicy)
    (hv : a.read.verifiedClaims = some claims) (hc : a.call = some (.evaluation claims reply))
    (hk : (Call.evaluation claims reply).IsReplyOf k) (hb : reply.Brings tuning decision) :
    (∃ identity, verdicts.resolve a.read.did = .ok identity ∧
      verdicts.verify a.read.id identity.presentedClaims = .ok claims ∧
      a.read.identity = some identity ∧ verdicts.evaluate claims = decision) ∧
    ∀ step, tuning.Grants step (setbacks tuning step (past ++ [a])) := by
  cases hk
  have hu := (standing_evaluatingPolicy hs).1 h
  have hverdict := (hg.evaluate k claims).eq_ok hb
  have hsame := fun step => @setbacks_snoc_of_not_transient tuning past a _ step hc
    (fun detail he => by cases decision <;> cases (hb.inTime_eq _ _ _).symm.trans he)
  obtain ⟨identity, claims', hres, hver, hi, hv'⟩ := hu.verified
  rw [hv] at hv'
  cases hv'
  refine ⟨⟨identity, hres, hver, hi, Except.ok.inj hverdict⟩, ?_⟩
  intro step
  rw [hsame]
  exact hu.granted step

theorem Standing.refused (h : Standing tuning verdicts past a.read)
    (hg : verdicts.Govern κ tuning) (hq : call.IsAbout a.read) (hc : a.call = some call)
    (hk : call.IsReplyOf k) (ha : call.answer tuning = .failed .permanent detail)
    (hn : a.next = a.read.ended call.fallback.onPermanent detail a.now) :
    verdicts.Settles tuning (past ++ [a]) a.written := by
  have hreference := h.reference_of_permanent hg hq hk ha
  have hsame := fun step => @setbacks_snoc_of_not_transient tuning past a call step hc
    (fun detail' he => by rw [ha] at he; cases he)
  left
  rw [Attempt.written, hn]
  refine ⟨hreference.symm, ?_⟩
  intro step
  rw [hsame]
  exact (h.cutShort hq).2.1 step

/-- Each genuine attempt keeps what the state of a record tells about it. -/
theorem Standing.step (h : Standing tuning verdicts past a.read) (hg : verdicts.Govern κ tuning)
    (ha : a.IsGenuine κ tuning) : Standing tuning verdicts (past ++ [a]) a.written := by
  cases ha.course with
  | begun hs hc _ hn => exact h.begun hs hc hn
  | resolved reply identity hs hc hb _ hn =>
    obtain ⟨k, hk⟩ := ha.replied _ hc
    exact h.resolved hg hs hc hk hb hn
  | verified identity reply claims hs hi hc hb _ hn =>
    obtain ⟨k, hk⟩ := ha.replied _ hc
    exact h.verified hg hs hi hc hk hb hn
  | allowed claims reply hs hv hc hb _ hn =>
    obtain ⟨k, hk⟩ := ha.replied _ hc
    obtain ⟨⟨identity, hres, hver, hi, hallow⟩, hgranted⟩ := h.decided hg hs hv hc hk hb
    have hend : a.written.state.isTerminal = true := by
      rw [Attempt.written_state, hn]
      rfl
    refine (standing_of_isTerminal hend).2 (Or.inl ⟨?_, hgranted⟩)
    rw [Attempt.written, hn]
    simp only [Verdicts.reference, Record.ending, Record.passed, Record.moved, hres, hver, hallow,
      hi, hv]
  | denied claims reply reason hs hv hc hb _ hn =>
    obtain ⟨k, hk⟩ := ha.replied _ hc
    obtain ⟨⟨identity, hres, hver, hi, hdeny⟩, hgranted⟩ := h.decided hg hs hv hc hk hb
    have hend : a.written.state.isTerminal = true := by
      rw [Attempt.written_state, hn]
      rfl
    refine (standing_of_isTerminal hend).2 (Or.inl ⟨?_, hgranted⟩)
    rw [Attempt.written, hn]
    simp only [Verdicts.reference, Record.ending, Record.ended, Record.moved, hres, hver, hdeny,
      hi, hv]
  | withoutIdentity hs hi _ _ _ =>
    -- Nobody gets here without an identity.
    obtain ⟨identity, -, hi'⟩ := ((standing_verifyingCredentials hs).1 h).resolved
    rw [hi] at hi'
    cases hi'
  | withoutClaims hs hv _ _ _ =>
    obtain ⟨identity, claims, -, -, -, hv'⟩ := ((standing_evaluatingPolicy hs).1 h).verified
    rw [hv] at hv'
    cases hv'
  | refused call fallback detail hc hq hf hanswer _ hn =>
    obtain ⟨k, hk⟩ := ha.replied _ hc
    obtain ⟨hstep, rfl⟩ := hq.route_eq ha.routed hf
    have hend : a.written.state.isTerminal = true := by
      rw [Attempt.written_state, hn]
      cases call <;> rfl
    exact (standing_of_isTerminal hend).2 (h.refused hg hq hc hk hanswer hn)
  | exhausted call fallback detail hc hq hf hanswer hx _ hn =>
    obtain ⟨hstep, rfl⟩ := hq.route_eq ha.routed hf
    rw [hstep] at hx
    have hend : a.written.state.isTerminal = true := by
      rw [Attempt.written_state, hn]
      cases call <;> rfl
    exact (standing_of_isTerminal hend).2 (h.exhausted hq hc hanswer hx hn)
  | deferred call fallback detail hc hq hf hanswer hx _ hn =>
    obtain ⟨hstep, rfl⟩ := hq.route_eq ha.routed hf
    rw [hstep] at hx
    exact h.deferred hq hc hanswer hx hn

/-- A record that was made by attempts has the standing of its state. -/
theorem History.standing (hb : ∀ step, 1 ≤ tuning.budgets.maxAttempts step)
    (hg : verdicts.Govern κ tuning) (h : History κ tuning past r) :
    Standing tuning verdicts past r := by
  induction h with
  | new id did now => exact standing_new hb id did now
  | step _ ha ih => exact ih.step hg ha

end

namespace World

variable {κ : Type} [Collaborators κ] {tuning : Tuning} {verdicts : Verdicts} {k : κ} {w : World κ}
  {deeds : List Deed}

/-- Under fixed verdicts, the end of a registration depends neither on the order of events nor on
what failed in passing, until that has used up a budget. -/
theorem Run.ending_is_reference (hb : ∀ step, 1 ≤ tuning.budgets.maxAttempts step)
    (hg : verdicts.Govern κ tuning) (h : Run tuning (initial k) deeds w) {r : Record}
    (hr : r ∈ w.registry.store.records) (ht : r.state.isTerminal = true) :
    verdicts.Settles tuning (swapsOn r.id deeds) r :=
  (standing_of_isTerminal ht).1 ((h.history hr).standing hb hg)

theorem onboarded_is_settled : ∃ deeds w r,
    Run {} (initial (⟨.zero⟩ : Bureau .welcome)) deeds w ∧ r ∈ w.registry.store.records ∧
      r.state = .onboarded ∧ Verdicts.welcome.Settles {} (swapsOn r.id deeds) r := by
  obtain ⟨deeds, w, hrun, r, hr, hs⟩ := exists_run_onboarded
  have hbudgets : ∀ step, 1 ≤ ({} : Tuning).budgets.maxAttempts step := by
    intro step
    cases step <;> decide
  exact ⟨deeds, w, r, hrun, hr, hs, hrun.ending_is_reference hbudgets
    (Verdicts.welcome.govern_bureau {}) hr (by rw [hs]; rfl)⟩

/-- Where a single attempt is granted and the services are too slow, somebody is turned away whom
the reference onboards. -/
theorem ending_is_not_reference : ∃ deeds w r,
    (∀ step, 1 ≤ ({ budgets := ⟨1, 1, 1⟩ } : Tuning).budgets.maxAttempts step) ∧
      Verdicts.welcome.Govern (Bureau .welcome) { budgets := ⟨1, 1, 1⟩ } ∧
      Run { budgets := ⟨1, 1, 1⟩ } (initial (⟨.ofSeconds 11⟩ : Bureau .welcome)) deeds w ∧
      r ∈ w.registry.store.records ∧ r.state.isTerminal = true ∧
      r.ending ≠ Verdicts.welcome.reference r.id r.did := by
  obtain ⟨deeds, w, hrun, hw⟩ := exists_run_drain_submit { budgets := ⟨1, 1, 1⟩ }
    (⟨.ofSeconds 11⟩ : Bureau .welcome) "did:web:participant" ⟨"1"⟩ (fun _ => .epoch) 3
  have hstates : w.registry.store.records.map Record.state = [.verificationFailed] := by
    rw [hw]
    decide +kernel
  obtain ⟨r, hr, hs⟩ := Store.exists_mem_of_map_state_eq hstates
  refine ⟨deeds, w, r, ?_, Verdicts.welcome.govern_bureau _, hrun, hr, by rw [hs]; rfl, ?_⟩
  · intro step
    cases step <;> decide
  · intro he
    have hstate : r.state = .onboarded := congrArg Ending.state he
    rw [hs] at hstate
    cases hstate

end World

end Onboarding
