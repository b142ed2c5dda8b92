import Onboarding.Proofs.Instants
import Onboarding.Proofs.World

/-!
Who does what in a run. A submission is made in one go or in two; work is done in cycles, where a
batch is leased and steps are taken with the copies in it, at readings of the clock that do not go
back before the lease. Meanwhile others do the same, or write first.
-/

namespace Onboarding

/-- All attempts are made in cycles: with a copy from a batch, no earlier than that was leased. -/
def InCycles (deeds : List Deed) : Prop :=
  ∀ before a after, deeds = before ++ .called a :: after →
    ∃ limit now batch, .leased limit now batch ∈ before ∧ a.read ∈ batch ∧ now ≤ a.now

def Deed.IsStepOn (batch : List Record) (since : Instant) : Deed → Prop
  | .called a => a.read ∈ batch ∧ since ≤ a.now
  | .drifted | .skipped _ | .swapped _ | .lost _ _ | .dropped _ => True
  | _ => False

def Deed.isWork : Deed → Bool
  | .drifted | .leased _ _ _ | .fetched _ | .called _ | .skipped _ | .swapped _ | .lost _ _
  | .dropped _ => true
  | .accepted _ | .refused _ | .created _ | .rejected _ _ | .withdrawn _ => false

inductive IsSubmission (id : ParticipantId) (now : Instant) : List Deed → Prop
  | refused (error : ServiceError) : IsSubmission id now [.refused error]
  | created (did : Did) :
    IsSubmission id now [.accepted (.new id did now), .created (.new id did now)]
  | rejected (did : Did) (error : StoreError) :
    IsSubmission id now [.accepted (.new id did now), .rejected (.new id did now) error]

def Deed.accepted? : Deed → Option Record
  | .accepted r => some r
  | _ => none

def Deed.created? : Deed → Option Record
  | .created r => some r
  | _ => none

def Deed.isConclusion : Deed → Bool
  | .created _ | .rejected _ _ | .withdrawn _ => true
  | _ => false

def OneByOne (deeds : List Deed) : Prop :=
  ∀ before r after, deeds = before ++ .accepted r :: after →
    (before.filterMap Deed.accepted?).length = before.countP Deed.isConclusion

/-- Submissions do not overlap, no name is given twice, and each record of a participant is created
later than those before it. -/
structure Orderly (deeds : List Deed) : Prop where
  alone : OneByOne deeds
  named : (deeds.filterMap Deed.accepted?).Pairwise fun r q => r.id ≠ q.id
  stamped : (deeds.filterMap Deed.created?).Pairwise fun r q =>
    r.did = q.did → r.createdAt < q.createdAt

def Balanced (deeds : List Deed) : Prop :=
  (deeds.filterMap Deed.accepted?).length = deeds.countP Deed.isConclusion

variable {deeds later : List Deed} {batch : List Record} {since : Instant} {deed : Deed}

theorem Deed.IsStepOn.isWork (h : deed.IsStepOn batch since) : deed.isWork = true := by
  cases deed <;> first | rfl | exact h.elim

/-- A step with a copy from a batch is one with a copy from a larger batch that was leased earlier.
-/
theorem Deed.IsStepOn.mono {larger : List Record} {earlier : Instant}
    (h : deed.IsStepOn batch since) (hb : ∀ r ∈ batch, r ∈ larger) (hs : earlier ≤ since) :
    deed.IsStepOn larger earlier := by
  cases deed with
  | called a => exact ⟨hb _ h.1, le_trans hs h.2⟩
  | _ => exact h

/-- What stands in two lists, one after the other, stands in the one or in the other. -/
theorem append_eq_split {α : Type} {xs ys before after : List α} {x : α}
    (h : xs ++ ys = before ++ x :: after) :
    (∃ rest, xs = before ++ x :: rest) ∨
    ∃ middle, before = xs ++ middle ∧ ys = middle ++ x :: after := by
  rcases List.append_eq_append_iff.1 h with hmiddle | ⟨middle, hxs, hafter⟩
  · exact Or.inr hmiddle
  · cases middle with
    | nil =>
      rw [List.append_nil] at hxs
      exact Or.inr ⟨[], by rw [hxs, List.append_nil], by simpa using hafter.symm⟩
    | cons y middle =>
      obtain ⟨rfl, -⟩ := List.cons.inj hafter
      exact Or.inl ⟨middle, hxs⟩

namespace InCycles

theorem nil : InCycles [] := by
  intro before a after h
  simp at h

theorem append (h : InCycles deeds) (hl : InCycles later) : InCycles (deeds ++ later) := by
  intro before a after hd
  rcases append_eq_split hd with ⟨rest, hdeeds⟩ | ⟨middle, hbefore, hlater⟩
  · exact h before a rest hdeeds
  · obtain ⟨limit, now, batch, hleased, hread, hnow⟩ := hl middle a after hlater
    refine ⟨limit, now, batch, ?_, hread, hnow⟩
    rw [hbefore]
    exact List.mem_append_right deeds hleased

theorem of_isSubmission {id : ParticipantId} {now : Instant} (h : IsSubmission id now deeds) :
    InCycles deeds := by
  intro before a after hd
  have hcalled : .called a ∈ deeds := by
    rw [hd]
    simp
  cases h <;> simp at hcalled

/-- A lease and the steps with what was leased. -/
theorem of_lease (limit : Nat) (h : ∀ deed ∈ deeds, deed.IsStepOn batch since) :
    InCycles (.leased limit since batch :: deeds) := by
  intro before a after hd
  cases before with
  | nil => cases hd
  | cons first before =>
    obtain ⟨rfl, hsteps⟩ := List.cons.inj hd
    obtain ⟨hread, hnow⟩ := h (.called a) (by rw [hsteps]; simp)
    exact ⟨limit, since, batch, List.mem_cons_self, hread, hnow⟩

end InCycles

/-- The last of the deeds comes after each of the others. -/
theorem rel_of_pairwise_filterMap_snoc {f : Deed → Option Record} {R : Record → Record → Prop}
    (h : ((deeds ++ [deed]).filterMap f).Pairwise R) {d : Deed} {r q : Record} (hd : d ∈ deeds)
    (hr : f d = some r) (hq : f deed = some q) : R r q := by
  rw [List.filterMap_append] at h
  exact (List.pairwise_append.1 h).2.2 r (List.mem_filterMap.2 ⟨d, hd, hr⟩) q
    (List.mem_filterMap.2 ⟨deed, List.mem_singleton_self deed, hq⟩)

theorem OneByOne.of_append (h : OneByOne (deeds ++ later)) : OneByOne deeds := by
  intro before r after hd
  exact h before r (after ++ later) (by rw [hd, List.append_assoc, List.cons_append])

theorem Orderly.of_append (h : Orderly (deeds ++ later)) : Orderly deeds := by
  obtain ⟨halone, hnamed, hstamped⟩ := h
  rw [List.filterMap_append] at hnamed hstamped
  exact ⟨halone.of_append, (List.pairwise_append.1 hnamed).1, (List.pairwise_append.1 hstamped).1⟩

/-- Where all that was accepted is over, further submissions may follow one by one. -/
theorem OneByOne.append (h : OneByOne deeds) (hb : Balanced deeds) (hl : OneByOne later) :
    OneByOne (deeds ++ later) := by
  intro before r after hd
  rcases append_eq_split hd with ⟨rest, hdeeds⟩ | ⟨middle, rfl, hlater⟩
  · exact h before r rest hdeeds
  · rw [List.filterMap_append, List.countP_append, List.length_append, hb, hl middle r after hlater]

/-- What is orderly may come after what is over, with other names and at later times. -/
theorem Orderly.append (h : Orderly deeds) (hb : Balanced deeds) (hl : Orderly later)
    (hid : ∀ r ∈ deeds.filterMap Deed.accepted?, ∀ q ∈ later.filterMap Deed.accepted?, r.id ≠ q.id)
    (hat : ∀ r ∈ deeds.filterMap Deed.created?, ∀ q ∈ later.filterMap Deed.created?,
      r.did = q.did → r.createdAt < q.createdAt) : Orderly (deeds ++ later) := by
  refine ⟨h.alone.append hb hl.alone, ?_, ?_⟩ <;>
    rw [List.filterMap_append, List.pairwise_append]
  · exact ⟨h.named, hl.named, hid⟩
  · exact ⟨h.stamped, hl.stamped, hat⟩

theorem Balanced.append (h : Balanced deeds) (hl : Balanced later) : Balanced (deeds ++ later) := by
  rw [Balanced, List.filterMap_append, List.countP_append, List.length_append, h, hl]

section

variable (hw : ∀ deed ∈ deeds, deed.isWork = true)

include hw

end

namespace IsSubmission

variable {id : ParticipantId} {now : Instant} {r : Record}

end IsSubmission

end Onboarding
