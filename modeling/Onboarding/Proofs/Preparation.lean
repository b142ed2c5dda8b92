import Onboarding.Proofs.Course
import Onboarding.Store.Lemmas

namespace Onboarding

namespace Route

theorem exists_of?_eq_some {s : State} (h : s.isTerminal = false) :
    ∃ route, Route.of? s = some route := by
  cases s <;> first | exact ⟨_, rfl⟩ | cases h

theorem of?_eq_none {s : State} (h : s.isTerminal = true) : Route.of? s = none := by
  cases s <;> first | rfl | cases h

/-- A route leads along edges only, and its failures end in states of failure. -/
theorem edges_of_of?_eq_some {s : State} {route : Route} (h : Route.of? s = some route) :
    route.onSuccess ∈ s.successors ∧ ∀ fallback, route.onFailure = some fallback →
      fallback.onTransient ∈ s.successors ∧ fallback.onPermanent ∈ s.successors ∧
        fallback.onPermanent.isFailure = true := by
  cases s <;> cases h <;> refine ⟨by decide, ?_⟩ <;> intro fallback hf <;> cases hf <;> decide

end Route

theorem Call.IsAbout.exists_fallback {call : Call} {r : Record} {route : Route}
    (hq : call.IsAbout r) (hr : Route.of? r.state = some route) :
    ∃ fallback, route.onFailure = some fallback := by
  have hs : r.state = .verifyingIdentity ∨ r.state = .verifyingCredentials ∨
      r.state = .evaluatingPolicy := by
    cases call with
    | resolution => exact Or.inl hq.1
    | verification => exact Or.inr (Or.inl hq.1)
    | evaluation => exact Or.inr (Or.inr hq.1)
  rcases hs with hs | hs | hs <;> rw [hs] at hr <;> cases hr <;> exact ⟨_, rfl⟩

namespace Record

def respond (r : Record) (tuning : Tuning) (route : Route) (answer : Option Answer)
    (now : Instant) : Except TransitionError (Outcome × Record) :=
  -- Without a question the step is a new start.
  match answer with
  | none => r.begin now
  | some answer => r.settle tuning route answer now

theorem exists_course_of_failed {r : Record} {tuning : Tuning} {route : Route} {call : Call}
    {kind : FailureKind} {detail : String} (now : Instant) (hr : Route.of? r.state = some route)
    (hq : call.IsAbout r) (ha : call.answer tuning = .failed kind detail) :
    ∃ outcome next, r.respond tuning route (some (call.answer tuning)) now = .ok (outcome, next) ∧
      Attempt.Course tuning ⟨r, now, route, some call, outcome, next⟩ := by
  obtain ⟨fallback, hf⟩ := hq.exists_fallback hr
  obtain ⟨ht, hp, hfail⟩ := (Route.edges_of_of?_eq_some hr).2 fallback hf
  simp only [respond, settle, ha, hf]
  cases kind with
  | permanent =>
    have hg := @giveUp_eq_ok r fallback.onPermanent detail now hfail hp
    exact ⟨_, _, hg, .refused call fallback detail rfl hq hf ha rfl rfl⟩
  | transient =>
    by_cases hx : tuning.budgets.isExhausted route.step r.failures = true
    · have hg := @retryOrGiveUp_eq_ok_of_isExhausted r detail now tuning route.step fallback
        hx hfail hp
      exact ⟨_, _, hg, .exhausted call fallback detail rfl hq hf ha hx rfl rfl⟩
    · have hg := @retryOrGiveUp_eq_ok_of_not_isExhausted r detail now tuning route.step fallback
        hx ht
      exact ⟨_, _, hg, .deferred call fallback detail rfl hq hf ha hx rfl rfl⟩

/-- Whatever a question is answered with, the attempt takes one of the courses. -/
theorem exists_course_of_call {r : Record} (tuning : Tuning) {route : Route} {call : Call}
    (now : Instant) (hr : Route.of? r.state = some route) (hq : call.IsAbout r) :
    ∃ outcome next, r.respond tuning route (some (call.answer tuning)) now = .ok (outcome, next) ∧
      Attempt.Course tuning ⟨r, now, route, some call, outcome, next⟩ := by
  have he := (Route.edges_of_of?_eq_some hr).1
  -- Of the replies to a question, only those that bring something have a course of their own.
  cases call with
  | resolution did reply =>
    have hd : did = r.did := hq.2
    subst hd
    rcases reply.inTime_cases tuning "identity resolution" VerificationError.kind
      VerificationError.message .resolved with ⟨identity, hb, ha⟩ | ⟨e, -, ha⟩ | ⟨-, detail, ha⟩
    · have hs := hq.1
      have hg := @succeed_eq_ok { r with identity := some identity } now route he
      have ha' : (Call.resolution r.did reply).answer tuning = .resolved identity := ha
      rw [ha']
      rw [hs] at hr
      cases hr
      exact ⟨_, _, hg, .resolved reply identity hs rfl hb rfl rfl⟩
    · exact exists_course_of_failed now hr hq ha
    · exact exists_course_of_failed now hr hq ha
  | verification name claims reply =>
    have hq' := hq
    obtain ⟨hs, hname, identity, hi, hclaims⟩ := hq'
    subst hname hclaims
    rcases reply.inTime_cases tuning "credential verification" VerificationError.kind
      VerificationError.message .verified with ⟨claims, hb, ha⟩ | ⟨e, -, ha⟩ | ⟨-, detail, ha⟩
    · have hg := @succeed_eq_ok { r with verifiedClaims := some claims } now route he
      have ha' : (Call.verification r.id identity.presentedClaims reply).answer tuning =
          .verified claims := ha
      rw [ha']
      rw [hs] at hr
      cases hr
      exact ⟨_, _, hg, .verified identity reply claims hs hi rfl hb rfl rfl⟩
    · exact exists_course_of_failed now hr hq ha
    · exact exists_course_of_failed now hr hq ha
  | evaluation claims reply =>
    rcases reply.inTime_cases tuning "policy evaluation" PolicyError.kind PolicyError.message
      Answer.ofDecision with ⟨decision, hb, ha⟩ | ⟨e, -, ha⟩ | ⟨-, detail, ha⟩
    · obtain ⟨hs, hv⟩ := hq
      have ha' : (Call.evaluation claims reply).answer tuning = .ofDecision decision := ha
      rw [ha']
      cases decision with
      | allow =>
        have hg := @succeed_eq_ok r now route he
        rw [hs] at hr
        cases hr
        exact ⟨_, _, hg, .allowed claims reply hs hv rfl hb rfl rfl⟩
      | deny reason =>
        have hp : State.policyDenied ∈ r.state.successors := by rw [hs]; decide
        have hg := @giveUp_eq_ok r .policyDenied ("policy denied membership: " ++ reason) now rfl hp
        exact ⟨_, _, hg, .denied claims reply reason hs hv rfl hb rfl rfl⟩
    · exact exists_course_of_failed now hr hq ha
    · exact exists_course_of_failed now hr hq ha

end Record

/-- A write is refused for a conflict or for want of the record only. -/
theorem Store.eq_of_compareAndSwap_eq_error {s : Store} {r : Record} {expected : Nat}
    {error : StoreError} (h : s.compareAndSwap r expected = .error error) :
    (∃ expected found, error = .conflict r.id expected found) ∨ error = .notFound r.id := by
  unfold compareAndSwap at h
  cases hf : s.find? r.id with
  | none =>
    rw [hf] at h
    cases h
    exact Or.inr rfl
  | some stored =>
    rw [hf] at h
    by_cases hv : stored.version = expected
    · simp [hv] at h
    · simp only [hv, if_false] at h
      cases h
      exact Or.inl ⟨_, _, rfl⟩

namespace Registry

variable {σ κ : Type}

def call? [Collaborators κ] (reg : Registry σ κ) (r : Record) : Step → Option Call
  | .pickUp => none
  | .resolveIdentity =>
    some (.resolution r.did (Collaborators.resolveIdentity reg.collaborators r.did).1)
  | .verifyCredentials => r.identity.map fun identity =>
    .verification r.id identity.presentedClaims
      (Collaborators.verifyCredentials reg.collaborators r.id identity.presentedClaims).1
  | .evaluatePolicy => r.verifiedClaims.map fun claims =>
    .evaluation claims (Collaborators.evaluatePolicy reg.collaborators claims).1

def prepare [Collaborators κ] (reg : Registry σ κ) (tuning : Tuning) (r : Record)
    (now : Instant) : Option Attempt × Registry σ κ :=
  match Route.of? r.state with
  | none => (none, reg)
  | some route =>
    let (answer, asked) := reg.ask tuning r route.step
    match r.respond tuning route answer now with
    | .error e => (none, asked.note [.illegalTransition r.id route.step e])
    | .ok (outcome, next) =>
      let call := reg.call? r route.step
      (some { read := r, now, route, call, outcome, next }, asked)

/-- A step is its preparation, followed by its write if there is anything to write. -/
theorem advance_eq [RecordStore σ] [Collaborators κ] (reg : Registry σ κ) (tuning : Tuning)
    (r : Record) (now : Instant) :
    reg.advance tuning r now =
      match reg.prepare tuning r now with
      | (none, reg) => (.ok .skipped, reg)
      | (some a, reg) => reg.commit a.read a.next a.route.step a.outcome := by
  unfold advance prepare
  cases Route.of? r.state with
  | none => rfl
  | some route =>
    simp only
    obtain ⟨answer, after⟩ := reg.ask tuning r route.step
    cases answer with
    | none =>
      simp only [Record.respond]
      cases r.begin now <;> rfl
    | some answer =>
      simp only [Record.respond]
      cases r.settle tuning route answer now <;> rfl

theorem ask_store [Collaborators κ] (reg : Registry σ κ) (tuning : Tuning) (r : Record)
    (step : Step) : (reg.ask tuning r step).2.store = reg.store := by
  cases step with
  | pickUp => rfl
  | resolveIdentity => rfl
  | verifyCredentials =>
    cases hi : r.identity with
    | none => simp only [ask, hi]
    | some identity =>
      simp only [ask, hi]
      rfl
  | evaluatePolicy =>
    cases hv : r.verifiedClaims with
    | none => simp only [ask, hv]
    | some claims =>
      simp only [ask, hv]
      rfl

theorem prepare_store [Collaborators κ] {reg after : Registry σ κ} {tuning : Tuning} {r : Record}
    {now : Instant} {result : Option Attempt} (h : reg.prepare tuning r now = (result, after)) :
    after.store = reg.store := by
  unfold prepare at h
  cases hr : Route.of? r.state with
  | none =>
    rw [hr] at h
    cases h
    rfl
  | some route =>
    have hs := reg.ask_store tuning r route.step
    simp only [hr] at h
    cases hres : r.respond tuning route (reg.ask tuning r route.step).1 now with
    | error e =>
      rw [hres] at h
      cases h
      exact hs
    | ok pair =>
      rw [hres] at h
      cases h
      exact hs

theorem prepare_of_isTerminal [Collaborators κ] (reg : Registry σ κ) (tuning : Tuning)
    {r : Record} (now : Instant) (h : r.state.isTerminal = true) :
    reg.prepare tuning r now = (none, reg) := by
  simp only [prepare, Route.of?_eq_none h]

theorem ask_fst_of_call? [Collaborators κ] {reg : Registry σ κ} {r : Record} {step : Step}
    {call : Call} (tuning : Tuning) (h : reg.call? r step = some call) :
    (reg.ask tuning r step).1 = some (call.answer tuning) ∧ call.IsReplyOf reg.collaborators := by
  cases step with
  | pickUp => cases h
  | resolveIdentity =>
    cases h
    exact ⟨rfl, rfl⟩
  | verifyCredentials =>
    obtain ⟨identity, hi, rfl⟩ := Option.map_eq_some_iff.1 h
    simp only [ask, hi]
    exact ⟨rfl, rfl⟩
  | evaluatePolicy =>
    obtain ⟨claims, hv, rfl⟩ := Option.map_eq_some_iff.1 h
    simp only [ask, hv]
    exact ⟨rfl, rfl⟩

theorem isAbout_of_call? [Collaborators κ] {reg : Registry σ κ} {r : Record} {route : Route}
    {call : Call} (hr : Route.of? r.state = some route) (h : reg.call? r route.step = some call) :
    call.IsAbout r := by
  cases hs : r.state <;> rw [hs] at hr <;> cases hr
  · cases h
  · cases h
    exact ⟨hs, rfl⟩
  · obtain ⟨identity, hi, rfl⟩ := Option.map_eq_some_iff.1 h
    exact ⟨hs, rfl, identity, hi, rfl⟩
  · obtain ⟨claims, hv, rfl⟩ := Option.map_eq_some_iff.1 h
    exact ⟨hs, hv⟩

theorem exists_course_of_call?_eq_none [Collaborators κ] {reg : Registry σ κ} {r : Record}
    (tuning : Tuning) {route : Route} (now : Instant) (hr : Route.of? r.state = some route)
    (h : reg.call? r route.step = none) :
    ∃ outcome next,
      r.respond tuning route (reg.ask tuning r route.step).1 now = .ok (outcome, next) ∧
        Attempt.Course tuning ⟨r, now, route, none, outcome, next⟩ := by
  -- One case for each state that has a route; the resolution of an identity never lacks anything.
  cases hs : r.state <;> rw [hs] at hr <;> cases hr
  · have hg := @Record.begin_eq_ok r now (by rw [hs]; decide)
    exact ⟨_, _, hg, .begun hs rfl rfl rfl⟩
  · cases h
  · have hi : r.identity = none := Option.map_eq_none_iff.1 h
    have hg := @Record.giveUp_eq_ok r .verificationFailed
      "identity descriptor missing from record" now rfl (by rw [hs]; decide)
    simp only [ask, hi]
    exact ⟨_, _, hg, .withoutIdentity hs hi rfl rfl rfl⟩
  · have hv : r.verifiedClaims = none := Option.map_eq_none_iff.1 h
    have hg := @Record.giveUp_eq_ok r .policyDenied "no verified claims to evaluate" now rfl
      (by rw [hs]; decide)
    simp only [ask, hv]
    exact ⟨_, _, hg, .withoutClaims hs hv rfl rfl rfl⟩

/-- A record that has not ended always allows a genuine attempt. -/
theorem exists_prepare_eq [Collaborators κ] (reg : Registry σ κ) (tuning : Tuning) {r : Record}
    (now : Instant) (h : r.state.isTerminal = false) :
    ∃ a, reg.prepare tuning r now = (some a, (reg.prepare tuning r now).2) ∧ a.read = r ∧
      a.now = now ∧ a.IsGenuine κ tuning ∧ ∀ call ∈ a.call, call.IsReplyOf reg.collaborators := by
  obtain ⟨route, hr⟩ := Route.exists_of?_eq_some h
  obtain ⟨outcome, next, hres, hcourse⟩ : ∃ outcome next,
      r.respond tuning route (reg.ask tuning r route.step).1 now = .ok (outcome, next) ∧
        Attempt.Course tuning ⟨r, now, route, reg.call? r route.step, outcome, next⟩ := by
    cases hc : reg.call? r route.step with
    | none => exact exists_course_of_call?_eq_none tuning now hr hc
    | some call =>
      rw [(ask_fst_of_call? tuning hc).1]
      exact Record.exists_course_of_call tuning now hr (isAbout_of_call? hr hc)
  have hreply : ∀ call ∈ reg.call? r route.step, call.IsReplyOf reg.collaborators := by
    intro call hc
    exact (ask_fst_of_call? tuning hc).2
  refine ⟨⟨r, now, route, reg.call? r route.step, outcome, next⟩, ?_, rfl, rfl,
    ⟨hr, hcourse, ?_⟩, hreply⟩
  · simp only [prepare, hr, hres]
  · intro call hc
    exact ⟨reg.collaborators, hreply call hc⟩

/-- Whatever is prepared is a genuine attempt with the record that was read. -/
theorem isGenuine_of_prepare_eq [Collaborators κ] {reg after : Registry σ κ} {tuning : Tuning}
    {r : Record} {now : Instant} {a : Attempt} (h : reg.prepare tuning r now = (some a, after)) :
    a.read = r ∧ a.now = now ∧ a.IsGenuine κ tuning ∧
      ∀ call ∈ a.call, call.IsReplyOf reg.collaborators := by
  cases ht : r.state.isTerminal with
  | true =>
    rw [reg.prepare_of_isTerminal tuning now ht] at h
    cases h
  | false =>
    obtain ⟨b, hb, hall⟩ := reg.exists_prepare_eq tuning now ht
    rw [hb] at h
    cases h
    exact hall

theorem commit_of_compareAndSwap_eq_ok {reg : Registry Store κ} {read next stored : Record}
    {s : Store} (step : Step) (outcome : Outcome)
    (h : reg.store.compareAndSwap next read.version = .ok (stored, s)) :
    (reg.commit read next step outcome).1 = .ok outcome ∧
      (reg.commit read next step outcome).2.store = s := by
  have hc : RecordStore.compareAndSwap reg.store next read.version = (.ok stored, s) := by
    simp only [RecordStore.compareAndSwap, h]
  unfold commit
  rw [hc]
  exact ⟨rfl, rfl⟩

/-- A write that was refused leaves the store as it is, and is reported as a conflict or as nothing
to do. -/
theorem commit_of_compareAndSwap_eq_error {reg : Registry Store κ} {read next : Record}
    {error : StoreError} (step : Step) (outcome : Outcome)
    (h : reg.store.compareAndSwap next read.version = .error error) :
    (reg.commit read next step outcome).2.store = reg.store ∧
      ((∃ expected found, error = .conflict next.id expected found ∧
          (reg.commit read next step outcome).1 = .ok .conflict) ∨
        (error = .notFound next.id ∧ (reg.commit read next step outcome).1 = .ok .skipped)) := by
  have hc : RecordStore.compareAndSwap reg.store next read.version = (.error error, reg.store) := by
    simp only [RecordStore.compareAndSwap, h]
  unfold commit
  rw [hc]
  rcases Store.eq_of_compareAndSwap_eq_error h with ⟨expected, found, rfl⟩ | rfl
  · exact ⟨rfl, Or.inl ⟨expected, found, rfl, rfl⟩⟩
  · exact ⟨rfl, Or.inr ⟨rfl, rfl⟩⟩

end Registry

end Onboarding
