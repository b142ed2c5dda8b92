import Mathlib.Data.List.Chain
import Mathlib.Tactic.ByContra
import Onboarding.Proofs.Change

/-! Edits of a record in place, where what was written before an error would stay written. -/

namespace Onboarding

theorem State.successors_eq_nil_iff {s : State} : s.successors = [] ↔ s.isTerminal = true := by
  cases s <;> decide

inductive Edit where
  | pickUp (now : Instant)
  | advance (target : State) (now : Instant)
  | fail (target : State) (detail : String) (now : Instant)
  | scheduleRetry (target : State) (detail : String) (due now : Instant)

abbrev InPlace :=
  -- An error ends the run, but what was written before it stays written.
  ExceptT TransitionError (StateM Record)

namespace InPlace

variable {α β : Type}

def on (r : Record) (p : InPlace α) : Except TransitionError α × Record := p.run.run r

/-- A program that consists of two goes on with the record as the first one leaves it, and stops at
its error. -/
theorem on_bind (r : Record) (p : InPlace α) (f : α → InPlace β) :
    on r (p >>= f) =
      match on r p with
      | (.ok a, s) => on s (f a)
      | (.error e, s) => (.error e, s) := by
  change (match on r p with
    | (answer, s) => ExceptT.bindCont f answer s : Except TransitionError β × Record) = _
  obtain ⟨answer, s⟩ := on r p
  cases answer with
  | ok a => rfl
  | error e => rfl

theorem on_get (r : Record) : on r (get : InPlace Record) = (.ok r, r) := rfl

theorem on_modify (r : Record) (f : Record → Record) :
    on r (modify f : InPlace Unit) = (.ok (), f r) := rfl

theorem on_throw (r : Record) (e : TransitionError) :
    on r (throw e : InPlace α) = (.error e, r) := rfl

end InPlace

namespace Edit

def target : Edit → State
  | .pickUp _ => .verifyingIdentity
  | .advance target _ | .fail target _ _ | .scheduleRetry target _ _ _ => target

def now : Edit → Instant
  | .pickUp now | .advance _ now | .fail _ _ now | .scheduleRetry _ _ _ now => now

def isFail : Edit → Bool
  | .fail .. => true
  | _ => false

def apply (r : Record) : Edit → Except TransitionError Record
  | .pickUp now => r.pickUp now
  | .advance target now => r.advance target now
  | .fail target detail now => r.fail target detail now
  | .scheduleRetry target detail due now => r.scheduleRetry target detail due now

def move (target : State) (now : Instant) : InPlace Unit := do
  let r ← get
  if target ∈ r.state.successors then
    modify fun r => { r with state := target }
    modify fun r => { r with stateTimestamp := now }
    modify fun r => { r with nextAttemptAt := now }
  else throw ⟨r.state, target⟩

def perform : Edit → InPlace Unit
  | .pickUp now => move .verifyingIdentity now
  | .advance target now => do
    move target now
    modify fun r => { r with retryCount := 0 }
    modify fun r => { r with errorDetail := none }
  | .fail target detail now => do
    let r ← get
    if target.isFailure then
      move target now
      modify fun r => { r with errorDetail := some detail }
    else throw ⟨r.state, target⟩
  | .scheduleRetry target detail due now => do
    move target now
    modify fun r => { r with retryCount := r.retryCount + 1 }
    modify fun r => { r with errorDetail := some detail }
    modify fun r => { r with nextAttemptAt := due }

def written (r : Record) : Edit → Record
  | .pickUp now => r.moved .verifyingIdentity now
  | .advance target now => r.passed target now
  | .fail target detail now => r.ended target detail now
  | .scheduleRetry target detail due now => r.deferred target detail due now

def IsRefused (e : Edit) (r : Record) : Prop :=
  e.target ∉ r.state.successors ∨ e.isFail = true ∧ e.target.isFailure = false

instance (e : Edit) (r : Record) : Decidable (e.IsRefused r) :=
  inferInstanceAs (Decidable (_ ∨ _))

variable {e : Edit} {r s : Record} {target : State} {now : Instant}

open InPlace

theorem on_move_of_mem (h : target ∈ r.state.successors) :
    on r (move target now) = (.ok (), r.moved target now) := by
  simp only [move, on_bind, on_get, if_pos h, on_modify]
  rfl

theorem on_move_of_notMem (h : target ∉ r.state.successors) :
    on r (move target now) = (.error ⟨r.state, target⟩, r) := by
  simp only [move, on_bind, on_get, if_neg h, on_throw]

theorem IsRefused.notMem (h : e.IsRefused r) (hfail : e.isFail = false) :
    e.target ∉ r.state.successors := by
  rcases h with hedge | ⟨hends, -⟩
  · exact hedge
  · rw [hfail] at hends
    cases hends

theorem mem_of_not_isRefused (h : ¬e.IsRefused r) : e.target ∈ r.state.successors := by
  by_contra hedge
  exact h (Or.inl hedge)

theorem isFailure_of_not_isRefused (h : ¬e.IsRefused r) (hfail : e.isFail = true) :
    e.target.isFailure = true := by
  by_contra htarget
  exact h (Or.inr ⟨hfail, Bool.eq_false_iff.2 htarget⟩)

/-- An edit that is refused writes nothing, in place as well. -/
theorem on_perform_of_isRefused (h : e.IsRefused r) :
    on r e.perform = (.error ⟨r.state, e.target⟩, r) ∧
      e.apply r = .error ⟨r.state, e.target⟩ := by
  cases e with
  | pickUp now =>
    have hedge := h.notMem rfl
    exact ⟨on_move_of_notMem hedge, Record.moveTo_eq_error hedge⟩
  | advance target now =>
    have hedge : target ∉ r.state.successors := h.notMem rfl
    constructor
    · rw [perform, on_bind, on_move_of_notMem hedge]
      rfl
    · rw [apply, Record.advance, Record.moveTo_eq_error hedge]
      rfl
  | scheduleRetry target detail due now =>
    have hedge : target ∉ r.state.successors := h.notMem rfl
    constructor
    · rw [perform, on_bind, on_move_of_notMem hedge]
      rfl
    · rw [apply, Record.scheduleRetry, Record.moveTo_eq_error hedge]
      rfl
  | fail target detail now =>
    -- The target is looked at before the edge.
    by_cases htarget : target.isFailure = true
    · have hedge : target ∉ r.state.successors := by
        rcases h with hedge | ⟨-, hnone⟩
        · exact hedge
        · exact absurd htarget (Bool.eq_false_iff.1 hnone)
      constructor
      · simp only [perform, on_bind, on_get, if_pos htarget, on_move_of_notMem hedge]
        rfl
      · rw [apply, Record.fail, if_pos htarget, Record.moveTo_eq_error hedge]
        rfl
    · constructor
      · simp only [perform, on_bind, on_get, if_neg htarget, on_throw]
        rfl
      · rw [apply, Record.fail, if_neg htarget]
        rfl

/-- An edit that is not refused writes all its fields. -/
theorem on_perform_of_not_isRefused (h : ¬e.IsRefused r) :
    on r e.perform = (.ok (), e.written r) ∧ e.apply r = .ok (e.written r) := by
  have hmem := mem_of_not_isRefused h
  cases e with
  | pickUp now => exact ⟨on_move_of_mem hmem, Record.moveTo_eq_ok_iff.2 ⟨hmem, rfl⟩⟩
  | advance target now =>
    have hedge : target ∈ r.state.successors := hmem
    refine ⟨?_, Record.advance_eq_ok_iff.2 ⟨hedge, rfl⟩⟩
    rw [perform, on_bind, on_move_of_mem hedge]
    rfl
  | fail target detail now =>
    have hedge : target ∈ r.state.successors := hmem
    have htarget : target.isFailure = true := isFailure_of_not_isRefused h rfl
    refine ⟨?_, Record.fail_eq_ok_iff.2 ⟨htarget, hedge, rfl⟩⟩
    simp only [perform, on_bind, on_get, if_pos htarget, on_move_of_mem hedge]
    rfl
  | scheduleRetry target detail due now =>
    have hedge : target ∈ r.state.successors := hmem
    refine ⟨?_, Record.scheduleRetry_eq_ok_iff.2 ⟨hedge, rfl⟩⟩
    rw [perform, on_bind, on_move_of_mem hedge]
    rfl

end Edit

namespace Record

open InPlace

/-- What an edit along an edge leaves behind. -/
structure GoesBy (r : Record) (e : Edit) (s : Record) : Prop where
  state : s.state = e.target
  stateTimestamp : s.stateTimestamp = e.now
  id : s.id = r.id
  did : s.did = r.did
  createdAt : s.createdAt = r.createdAt
  version : s.version = r.version
  identity : s.identity = r.identity
  verifiedClaims : s.verifiedClaims = r.verifiedClaims

/-- An edit is refused for its reasons only, and says between which states; then it leaves the
record as it is, and otherwise it is done. -/
structure Takes (r : Record) (e : Edit) (answer : Except TransitionError Unit) (s : Record) :
    Prop where
  error_iff : ∀ error, answer = .error error ↔ e.IsRefused r ∧ error = ⟨r.state, e.target⟩
  kept : answer ≠ .ok () → s = r
  done : answer = .ok () → r.GoesBy e s

def after (r : Record) (e : Edit) : Record := (on r e.perform).2

def edited (r : Record) (edits : List Edit) : Record := edits.foldl after r

def visited (r : Record) : List Edit → List State
  | [] => [r.state]
  | e :: edits => r.state :: (r.after e).visited edits

def answers (r : Record) : List Edit → List (Except TransitionError Unit)
  | [] => []
  | e :: edits => (on r e.perform).1 :: (r.after e).answers edits

/-- The edits without those that are refused. -/
def effective (r : Record) : List Edit → List Edit
  | [] => []
  | e :: edits =>
    match on r e.perform with
    | (.ok _, s) => e :: s.effective edits
    | (.error _, s) => s.effective edits

variable {r : Record} {e : Edit} {edits : List Edit}

theorem goesBy_written (r : Record) (e : Edit) : r.GoesBy e (e.written r) := by
  cases e <;> exact ⟨rfl, rfl, rfl, rfl, rfl, rfl, rfl, rfl⟩

/-- Each of the edits in place is done in full or not at all. -/
theorem takes_on_perform (r : Record) (e : Edit) :
    r.Takes e (on r e.perform).1 (on r e.perform).2 := by
  by_cases h : e.IsRefused r
  · rw [(Edit.on_perform_of_isRefused h).1]
    constructor
    · intro error
      rw [Except.error.injEq, eq_comm, and_iff_right h]
    · intro _
      rfl
    · intro hok
      cases hok
  · rw [(Edit.on_perform_of_not_isRefused h).1]
    constructor
    · intro error
      exact iff_of_false (by simp) (fun hrefused => h hrefused.1)
    · intro hnot
      exact absurd rfl hnot
    · intro _
      exact r.goesBy_written e

theorem after_of_isRefused (h : e.IsRefused r) : r.after e = r := by
  rw [after, (Edit.on_perform_of_isRefused h).1]

theorem after_of_not_isRefused (h : ¬e.IsRefused r) : r.after e = e.written r := by
  rw [after, (Edit.on_perform_of_not_isRefused h).1]

theorem effective_of_isRefused (h : e.IsRefused r) :
    r.effective (e :: edits) = r.effective edits := by
  rw [effective, (Edit.on_perform_of_isRefused h).1]

theorem effective_of_not_isRefused (h : ¬e.IsRefused r) :
    r.effective (e :: edits) = e :: (r.after e).effective edits := by
  rw [effective, after, (Edit.on_perform_of_not_isRefused h).1]

/-- No edit goes on from a state in which a registration has ended. -/
theorem isRefused_of_isTerminal (h : r.state.isTerminal = true) (e : Edit) : e.IsRefused r := by
  refine Or.inl ?_
  rw [State.successors_eq_nil_iff.2 h]
  exact List.not_mem_nil

/-- An edit goes along an edge or leaves the state as it is. -/
theorem state_after_cases (r : Record) (e : Edit) :
    (r.after e).state ∈ r.state.successors ∨ (r.after e).state = r.state := by
  by_cases h : e.IsRefused r
  · rw [after_of_isRefused h]
    exact Or.inr rfl
  · rw [after_of_not_isRefused h, (r.goesBy_written e).state]
    exact Or.inl (Edit.mem_of_not_isRefused h)

theorem head?_visited (r : Record) (edits : List Edit) :
    (r.visited edits).head? = some r.state := by
  cases edits <;> rfl

/-- From one edit to the next, a record stays in its state or goes along an edge. -/
theorem isChain_visited (r : Record) (edits : List Edit) :
    (r.visited edits).IsChain fun source target =>
      target ∈ source.successors ∨ target = source := by
  induction edits generalizing r with
  | nil => exact List.isChain_singleton _
  | cons e edits ih =>
    rw [visited, List.isChain_cons]
    refine ⟨?_, ih (r.after e)⟩
    intro target htarget
    rw [head?_visited] at htarget
    cases htarget
    exact r.state_after_cases e

/-- With the refused edits left out, every edit is done and goes along an edge. -/
theorem isChain_visited_effective (r : Record) (edits : List Edit) :
    (r.visited (r.effective edits)).IsChain (fun source target => target ∈ source.successors) ∧
      ∀ answer ∈ r.answers (r.effective edits), answer = .ok () := by
  induction edits generalizing r with
  | nil => exact ⟨List.isChain_singleton _, by simp [effective, answers]⟩
  | cons e edits ih =>
    by_cases h : e.IsRefused r
    · rw [effective_of_isRefused h]
      exact ih r
    · obtain ⟨hchain, hanswers⟩ := ih (r.after e)
      rw [effective_of_not_isRefused h, visited, answers, List.isChain_cons]
      refine ⟨⟨?_, hchain⟩, ?_⟩
      · intro target htarget
        rw [head?_visited] at htarget
        cases htarget
        rw [after_of_not_isRefused h, (r.goesBy_written e).state]
        exact Edit.mem_of_not_isRefused h
      · intro answer hanswer
        rcases List.mem_cons.1 hanswer with rfl | hrest
        · rw [(Edit.on_perform_of_not_isRefused h).1]
        · exact hanswers answer hrest

theorem effective_sublist (r : Record) (edits : List Edit) : (r.effective edits).Sublist edits := by
  induction edits generalizing r with
  | nil => exact List.Sublist.refl []
  | cons e edits ih =>
    by_cases h : e.IsRefused r
    · rw [effective_of_isRefused h]
      exact (ih r).cons e
    · rw [effective_of_not_isRefused h]
      exact (ih (r.after e)).cons_cons e

/-- The edits that are refused can be left out. -/
theorem edited_effective (r : Record) (edits : List Edit) :
    r.edited (r.effective edits) = r.edited edits := by
  induction edits generalizing r with
  | nil => rfl
  | cons e edits ih =>
    by_cases h : e.IsRefused r
    · calc r.edited (r.effective (e :: edits))
          = r.edited (r.effective edits) := by rw [effective_of_isRefused h]
        _ = r.edited edits := ih r
        _ = (r.after e).edited edits := by rw [after_of_isRefused h]
    · calc r.edited (r.effective (e :: edits))
          = (r.after e).edited ((r.after e).effective edits) := by
            rw [effective_of_not_isRefused h]
            rfl
        _ = (r.after e).edited edits := ih (r.after e)

/-- Edits are all or nothing. Each of them answers as the change that it makes in place, and goes
along an edge, with what it does not concern left alone, or leaves the record as it is and says
which edge there was not; none is there where a registration has ended. The states on the way are
connected by edges, apart from edits that are refused; and these make no difference to what comes
out in the end. -/
theorem edits_are_all_or_nothing (r : Record) :
    (∀ e : Edit, r.Takes e (on r e.perform).1 (on r e.perform).2 ∧
      e.apply r = (on r e.perform).1.map fun _ => (on r e.perform).2) ∧
    (r.state.isTerminal = true → ∀ e : Edit,
      (on r e.perform).1 = .error ⟨r.state, e.target⟩) ∧
    ∀ edits : List Edit,
      (r.visited edits).IsChain
        (fun source target => target ∈ source.successors ∨ target = source) ∧
      (r.visited (r.effective edits)).IsChain (fun source target => target ∈ source.successors) ∧
      (∀ answer ∈ r.answers (r.effective edits), answer = .ok ()) ∧
      (r.effective edits).Sublist edits ∧ r.edited (r.effective edits) = r.edited edits := by
  refine ⟨?_, ?_, ?_⟩
  · intro e
    refine ⟨r.takes_on_perform e, ?_⟩
    by_cases h : e.IsRefused r
    · obtain ⟨hon, happly⟩ := Edit.on_perform_of_isRefused h
      rw [hon, happly]
      rfl
    · obtain ⟨hon, happly⟩ := Edit.on_perform_of_not_isRefused h
      rw [hon, happly]
      rfl
  · intro hended e
    rw [(Edit.on_perform_of_isRefused (isRefused_of_isTerminal hended e)).1]
  · intro edits
    obtain ⟨hchain, hanswers⟩ := r.isChain_visited_effective edits
    exact ⟨r.isChain_visited edits, hchain, hanswers, r.effective_sublist edits,
      r.edited_effective edits⟩

/-- A registration bounces once and is given up, with two edits refused on the way; then it is not
begun with again. -/
theorem bounced_record_is_edited : ∃ (r : Record) (edits : List Edit),
    r.state = .onboardingInitiated ∧ edits.length = 6 ∧ (r.effective edits).length = 4 ∧
      r.edited (r.effective edits) = r.edited edits ∧
      (r.visited (r.effective edits)).IsChain (fun source target => target ∈ source.successors) ∧
      (r.edited edits).retryCount = 1 ∧ (r.edited edits).state.isTerminal = true ∧
      (on (r.edited edits) (Edit.pickUp .epoch).perform).1 =
        .error ⟨.verificationFailed, .verifyingIdentity⟩ := by
  have hdid : Did.WellFormed "web".toList "participant".toList := by
    have hlast : "participant".toList.getLast? = some 't' := by decide
    refine ⟨by decide, List.all_eq_true.1 (by decide), by decide, ?_⟩
    intro c hc
    rw [hlast] at hc
    cases hc
    decide
  let r : Record := .new ⟨"1"⟩ ⟨"web", "participant", hdid⟩ .epoch
  let edits : List Edit := [.advance .onboarded .epoch, .pickUp .epoch,
    .fail .policyDenied "no member" .epoch,
    .scheduleRetry .onboardingInitiated "dns timeout" .epoch .epoch, .pickUp .epoch,
    .fail .verificationFailed "not resolved" .epoch]
  obtain ⟨-, -, hedits⟩ := r.edits_are_all_or_nothing
  obtain ⟨-, hchain, -, -, hsame⟩ := hedits edits
  have hended : (r.edited edits).state.isTerminal = true := rfl
  obtain ⟨-, hrefused, -⟩ := (r.edited edits).edits_are_all_or_nothing
  exact ⟨r, edits, rfl, rfl, rfl, hsame, hchain, rfl, hended, hrefused hended (.pickUp .epoch)⟩

end Record

end Onboarding
