import Onboarding.Proofs.Admission
import Onboarding.Proofs.Preparation

/-!
A registry among its workers and participants. What is under way at the same time is here cut into
moves, each of which uses the store at most once; moves of any number of workers and participants
follow one another in any order.
-/

namespace Onboarding

/-- A registry and all that is under way: the copies of records that were read so far, the attempts
of workers that are not yet written, and the submissions whose record is not yet created. -/
structure World (κ : Type) where
  registry : Registry Store κ
  copies : List Record := []
  attempts : List Attempt := []
  submissions : List Record := []

inductive Deed where
  /-- The services, or the log, went on without the registry. -/
  | drifted
  | accepted (r : Record)
  | refused (error : ServiceError)
  | created (r : Record)
  | rejected (r : Record) (error : StoreError)
  | withdrawn (r : Record)
  | leased (limit : Nat) (now : Instant) (batch : List Record)
  | fetched (r : Record)
  | called (a : Attempt)
  | skipped (r : Record)
  | swapped (a : Attempt)
  | lost (a : Attempt) (error : StoreError)
  | dropped (a : Attempt)

namespace World

variable {κ : Type} [Collaborators κ]

def initial (k : κ) : World κ where
  registry := { store := .empty, collaborators := k }

/-- The moves. Attempts start from any copy that was ever read, at any instant, and end with their
write, whether it succeeds or not, or without it; so do submissions with their creation. -/
inductive Move (tuning : Tuning) (w : World κ) : Deed → World κ → Prop
  | drift (k : κ) (events : List Event) (waited : Nat) :
    Move tuning w .drifted
      { w with registry := { w.registry with collaborators := k, events, waited } }
  | accept {raw : String} {id : ParticipantId} {now : Instant} {r : Record}
      {after : Registry Store κ} (h : w.registry.vet raw id now = (.ok r, after)) :
    Move tuning w (.accepted r) { w with registry := after, submissions := r :: w.submissions }
  | refuse {raw : String} {id : ParticipantId} {now : Instant} {error : ServiceError}
      {after : Registry Store κ} (h : w.registry.vet raw id now = (.error error, after)) :
    Move tuning w (.refused error) { w with registry := after }
  | create {before after : List Record} {r : Record} {s : Store}
      (hr : w.submissions = before ++ r :: after) (h : w.registry.store.create r = .ok s) :
    Move tuning w (.created r)
      { w with registry := (w.registry.register r).2, submissions := before ++ after }
  | reject {before after : List Record} {r : Record} {error : StoreError}
      (hr : w.submissions = before ++ r :: after)
      (h : w.registry.store.create r = .error error) :
    Move tuning w (.rejected r error)
      { w with registry := (w.registry.register r).2, submissions := before ++ after }
  | withdraw {before after : List Record} {r : Record}
      (hr : w.submissions = before ++ r :: after) :
    Move tuning w (.withdrawn r) { w with submissions := before ++ after }
  | lease (limit : Nat) (now : Instant) :
    Move tuning w (.leased limit now (w.registry.store.lease limit now))
      { w with copies := w.registry.store.lease limit now ++ w.copies }
  | fetch {id : ParticipantId} {r : Record} (h : w.registry.store.get id = .ok r) :
    Move tuning w (.fetched r) { w with copies := r :: w.copies }
  | call {r : Record} {now : Instant} {a : Attempt} {after : Registry Store κ}
      (hr : r ∈ w.copies) (h : w.registry.prepare tuning r now = (some a, after)) :
    Move tuning w (.called a) { w with registry := after, attempts := a :: w.attempts }
  | skip {r : Record} {now : Instant} {after : Registry Store κ} (hr : r ∈ w.copies)
      (h : w.registry.prepare tuning r now = (none, after)) :
    Move tuning w (.skipped r) { w with registry := after }
  | swap {before after : List Attempt} {a : Attempt} {stored : Record} {s : Store}
      (ha : w.attempts = before ++ a :: after)
      (h : w.registry.store.compareAndSwap a.next a.read.version = .ok (stored, s)) :
    Move tuning w (.swapped a)
      { w with
        registry := (w.registry.commit a.read a.next a.route.step a.outcome).2
        attempts := before ++ after }
  | lose {before after : List Attempt} {a : Attempt} {error : StoreError}
      (ha : w.attempts = before ++ a :: after)
      (h : w.registry.store.compareAndSwap a.next a.read.version = .error error) :
    Move tuning w (.lost a error)
      { w with
        registry := (w.registry.commit a.read a.next a.route.step a.outcome).2
        attempts := before ++ after }
  | drop {before after : List Attempt} {a : Attempt} (ha : w.attempts = before ++ a :: after) :
    Move tuning w (.dropped a) { w with attempts := before ++ after }

/-- The runs from a world, with what was done in them from the first move to the last. -/
inductive Run (tuning : Tuning) (w : World κ) : List Deed → World κ → Prop
  | nil : Run tuning w [] w
  | snoc {deeds : List Deed} {deed : Deed} {u v : World κ} (h : Run tuning w deeds u)
      (hm : Move tuning u deed v) : Run tuning w (deeds ++ [deed]) v

variable {tuning : Tuning} {u v w : World κ} {deed : Deed}

theorem Run.single {deed : Deed} (h : Move tuning w deed v) : Run tuning w [deed] v :=
  .snoc .nil h

theorem Run.trans {earlier later : List Deed} (h : Run tuning u earlier v)
    (hl : Run tuning v later w) : Run tuning u (earlier ++ later) w := by
  induction hl with
  | nil =>
    rw [List.append_nil]
    exact h
  | snoc _ hm ih =>
    rw [← List.append_assoc]
    exact ih.snoc hm

/-- A run can be taken apart at each of its deeds. -/
theorem Run.split {deeds before after : List Deed} (h : Run tuning w deeds v)
    (hd : deeds = before ++ deed :: after) :
    ∃ u x, Run tuning w before u ∧ Move tuning u deed x ∧ Run tuning x after v := by
  -- The run ends with its last move: either this is the one to cut at, or it comes after it.
  induction h generalizing after with
  | nil => simp at hd
  | @snoc deeds last u v h hm ih =>
    rcases List.eq_nil_or_concat after with rfl | ⟨rest, d, rfl⟩
    · obtain ⟨rfl, hlast⟩ := List.append_inj' hd rfl
      cases hlast
      exact ⟨u, v, h, hm, .nil⟩
    · have hsplit : deeds ++ [last] = (before ++ deed :: rest) ++ [d] := by simpa using hd
      obtain ⟨hdeeds, hlast⟩ := List.append_inj' hsplit rfl
      cases hlast
      obtain ⟨t, x, ht, hmove, hx⟩ := ih hdeeds
      refine ⟨t, x, ht, hmove, ?_⟩
      rw [List.concat_eq_append]
      exact hx.snoc hm

/-- A move leaves the store as it is, or creates the record of a submission in it, or replaces a
record in it by the result of an attempt. -/
theorem Move.store_cases (h : Move tuning w deed v) :
    (v.registry.store = w.registry.store ∧ (∀ r, deed ≠ .created r) ∧ ∀ a, deed ≠ .swapped a) ∨
    (∃ r ∈ w.submissions, deed = .created r ∧
      w.registry.store.create r = .ok v.registry.store) ∨
    (∃ a ∈ w.attempts, deed = .swapped a ∧ ∃ stored,
      w.registry.store.compareAndSwap a.next a.read.version = .ok (stored, v.registry.store)) := by
  cases h with
  | drift | withdraw | lease | fetch | drop => left; simp
  | @accept raw id now r after h =>
    left; simp [Registry.vet_store h]
  | @refuse raw id now error after h =>
    left; simp [Registry.vet_store h]
  | @call r now a after hr h =>
    left; simp [Registry.prepare_store h]
  | @skip r now after hr h =>
    left; simp [Registry.prepare_store h]
  | reject hr h => left; simp [(Registry.register_of_create_eq_error h).2]
  | lose ha h => left; simp [(Registry.commit_of_compareAndSwap_eq_error _ _ h).1]
  | @create before after r s hr h =>
    refine Or.inr (Or.inl ⟨r, ?_, rfl, ?_⟩)
    · rw [hr]; simp
    · rw [(Registry.register_of_create_eq_ok h).2, h]
  | @swap before after a stored s ha h =>
    refine Or.inr (Or.inr ⟨a, ?_, rfl, stored, ?_⟩)
    · rw [ha]; simp
    · rw [(Registry.commit_of_compareAndSwap_eq_ok _ _ h).2, h]

/-- A copy was there before, or was just read from the store. -/
theorem Move.copies_cases (h : Move tuning w deed v) {c : Record} (hc : c ∈ v.copies) :
    c ∈ w.copies ∨ c ∈ w.registry.store.records := by
  cases h with
  | lease limit now =>
    rcases List.mem_append.1 hc with hc | hc
    · right
      exact (Store.mem_of_mem_lease hc).1
    · exact Or.inl hc
  | @fetch id r h =>
    rcases List.mem_cons.1 hc with rfl | hc
    · right
      exact (Store.find?_eq_some_iff.1 (Store.get_eq_ok_iff.1 h)).1
    · exact Or.inl hc
  | _ => exact Or.inl hc

/-- An attempt under way was there before, or was just made from a copy. -/
theorem Move.attempts_cases (h : Move tuning w deed v) {a : Attempt} (ha : a ∈ v.attempts) :
    a ∈ w.attempts ∨ (deed = .called a ∧ a.read ∈ w.copies ∧ a.IsGenuine κ tuning) := by
  have hsub {before after : List Attempt} {b : Attempt} (hb : w.attempts = before ++ b :: after)
      (ha : a ∈ before ++ after) : a ∈ w.attempts := by
    rw [hb]
    simp only [List.mem_append, List.mem_cons] at ha ⊢
    exact ha.imp_right Or.inr
  cases h with
  | @call r now b after hr h =>
    rcases List.mem_cons.1 ha with rfl | ha
    · obtain ⟨rfl, -, hgen, -⟩ := Registry.isGenuine_of_prepare_eq h
      exact Or.inr ⟨rfl, hr, hgen⟩
    · exact Or.inl ha
  | swap hb _ | lose hb _ | drop hb => exact Or.inl (hsub hb ha)
  | _ => exact Or.inl ha

theorem Move.submissions_cases (h : Move tuning w deed v) {r : Record} (hr : r ∈ v.submissions) :
    r ∈ w.submissions ∨ (deed = .accepted r ∧ ∃ id did now, r = .new id did now) := by
  have hsub {before after : List Record} {b : Record} (hb : w.submissions = before ++ b :: after)
      (hr : r ∈ before ++ after) : r ∈ w.submissions := by
    rw [hb]
    simp only [List.mem_append, List.mem_cons] at hr ⊢
    exact hr.imp_right Or.inr
  cases h with
  | @accept raw id now b after h =>
    rcases List.mem_cons.1 hr with rfl | hr
    · obtain ⟨did, -, rfl, -⟩ := Registry.eq_new_of_vet_eq_ok h
      exact Or.inr ⟨rfl, id, did, now, rfl⟩
    · exact Or.inl hr
  | create hb _ | reject hb _ | withdraw hb => exact Or.inl (hsub hb hr)
  | _ => exact Or.inl hr

end World

end Onboarding
