import Onboarding.Proofs.World

namespace Onboarding

/-- What a worker has in hand: the attempt that is to be written, and the rest of its batch. -/
structure Hands where
  attempt : Option Attempt := none
  batch : List Record := []

namespace Hands

/-- What a worker does to what it has in hand. It takes a new batch, or a single record, only when
there is nothing to be written. What participants do meanwhile does not concern it. -/
inductive Does : Hands → Deed → Hands → Prop
  | leased (rest : List Record) (limit : Nat) (now : Instant) (batch : List Record) :
    Does ⟨none, rest⟩ (.leased limit now batch) ⟨none, batch⟩
  | fetched (rest : List Record) (r : Record) : Does ⟨none, rest⟩ (.fetched r) ⟨none, [r]⟩
  | called (rest : List Record) (a : Attempt) :
    Does ⟨none, a.read :: rest⟩ (.called a) ⟨some a, rest⟩
  | skipped (rest : List Record) (r : Record) : Does ⟨none, r :: rest⟩ (.skipped r) ⟨none, rest⟩
  | swapped (rest : List Record) (a : Attempt) : Does ⟨some a, rest⟩ (.swapped a) ⟨none, rest⟩
  | lost (rest : List Record) (a : Attempt) (error : StoreError) :
    Does ⟨some a, rest⟩ (.lost a error) ⟨none, rest⟩
  | drifted (h : Hands) : Does h .drifted h
  | accepted (h : Hands) (r : Record) : Does h (.accepted r) h
  | refused (h : Hands) (error : ServiceError) : Does h (.refused error) h
  | created (h : Hands) (r : Record) : Does h (.created r) h
  | rejected (h : Hands) (r : Record) (error : StoreError) : Does h (.rejected r error) h
  | withdrawn (h : Hands) (r : Record) : Does h (.withdrawn r) h

/-- The deeds of a single worker, and of any number of participants, from the first to the last. -/
inductive Works (h : Hands) : List Deed → Hands → Prop
  | nil : Works h [] h
  | snoc {deeds : List Deed} {deed : Deed} {u v : Hands} (hw : Works h deeds u)
      (hd : Does u deed v) : Works h (deeds ++ [deed]) v

variable {u v w : Hands}

theorem Works.single {deed : Deed} (h : Does u deed v) : Works u [deed] v := .snoc .nil h

theorem Works.trans {earlier later : List Deed} (h : Works u earlier v) (hl : Works v later w) :
    Works u (earlier ++ later) w := by
  induction hl with
  | nil =>
    rw [List.append_nil]
    exact h
  | snoc _ hd ih =>
    rw [← List.append_assoc]
    exact ih.snoc hd

theorem Works.eq_of_nil (h : Works u [] v) : v = u := by
  generalize hl : ([] : List Deed) = l at h
  cases h with
  | nil => rfl
  | snoc => simp at hl

theorem Works.of_snoc {deeds : List Deed} {deed : Deed} (h : Works u (deeds ++ [deed]) w) :
    ∃ v, Works u deeds v ∧ Does v deed w := by
  generalize hl : deeds ++ [deed] = l at h
  cases h with
  | nil => simp at hl
  | snoc hw hd =>
    obtain ⟨rfl, hlast⟩ := List.append_inj' hl rfl
    cases hlast
    exact ⟨_, hw, hd⟩

end Hands

end Onboarding
