import Onboarding.Proofs.Identifiers
import Onboarding.Proofs.Timestamps
import Onboarding.Record

namespace Onboarding

open Number

namespace Json

variable {α : Type}

def Names (v : Json) (name : String) : Prop :=
  -- A text, or an object whose one field has this name and is null.
  v = .string name ∨ v = .object [(name, .null)]

def MayHold (P : α → Json → Prop) (part : Option Json) : Option α → Prop
  -- A part that is absent is missing or null.
  | none => part = none ∨ part = some .null
  | some a => ∃ v ∈ part, P a v

def IsText (s : String) (v : Json) : Prop := v = .string s

def IsNat (limit n : Nat) (v : Json) : Prop := v = .int n ∧ n ≤ limit

theorem find?_label_eq_some_iff {β : Type} [BEq β] [LawfulBEq β] {items : List α} {label : α → β}
    {name : β} {a : α} (hall : ∀ b, b ∈ items) (hlabel : Function.Injective label) :
    items.find? (fun b => label b == name) = some a ↔ label a = name := by
  constructor
  · intro h
    have hfound := List.find?_some h
    exact beq_iff_eq.1 hfound
  · rintro rfl
    have hsome : (items.find? fun b => label b == label a).isSome = true :=
      List.find?_isSome.2 ⟨a, hall a, beq_self_eq_true _⟩
    obtain ⟨b, hb⟩ := Option.isSome_iff_exists.1 hsome
    have hfound := List.find?_some hb
    rw [hb, hlabel (beq_iff_eq.1 hfound)]

/-- Among labels that are distinct, a plain variant is read exactly from the values that name it. -/
theorem plainVariant?_eq_some_iff {items : List α} {label : α → String} {v : Json} {a : α}
    (hall : ∀ b, b ∈ items) (hlabel : Function.Injective label) :
    v.plainVariant? items label = some a ↔ v.Names (label a) := by
  unfold plainVariant?
  constructor
  · intro h
    split at h
    · next name hvariant =>
      rw [(find?_label_eq_some_iff hall hlabel).1 h]
      unfold variant? at hvariant
      split at hvariant
      · cases hvariant
        exact .inl rfl
      · cases hvariant
        exact .inr rfl
      · cases hvariant
    · cases h
  · rintro (rfl | rfl)
    · exact (find?_label_eq_some_iff hall hlabel).2 rfl
    · exact (find?_label_eq_some_iff hall hlabel).2 rfl

/-- Null stands for nothing, so that a reader is not asked for it. -/
theorem optional?_eq_some_iff {read : Json → Option α} {P : α → Json → Prop}
    (hread : ∀ {a v}, read v = some a ↔ P a v) (hnull : read .null = none) {part : Option Json}
    {a : Option α} : optional? read part = some a ↔ MayHold P part a := by
  unfold optional?
  split
  · cases a <;> simp [MayHold]
  · cases a with
    | none => simp [MayHold]
    | some a =>
      have hnot : ¬P a .null := by
        rw [← hread, hnull]
        exact Option.some_ne_none a ∘ Eq.symm
      simpa [MayHold] using hnot
  · next v hv =>
    cases a with
    | none => simpa [MayHold] using hv
    | some a => simpa [MayHold] using hread

theorem string?_eq_some_iff {v : Json} {s : String} : v.string? = some s ↔ IsText s v := by
  cases v <;> simp [string?, IsText]

theorem array?_eq_some_iff {v : Json} {items : List Json} :
    v.array? = some items ↔ v = .array items := by
  cases v <;> simp [array?]

theorem nat?_eq_some_iff {limit : Nat} {v : Json} {n : Nat} :
    v.nat? limit = some n ↔ IsNat limit n v := by
  unfold IsNat
  cases v with
  | int m =>
    simp only [nat?, int.injEq]
    split_ifs with hm
    · rw [Option.some.injEq]
      omega
    · simp only [false_iff]
      omega
  | _ => simp [nat?]

theorem bind_eq_some_iff {read : Json → Option α} {P : α → Json → Prop}
    (hread : ∀ {a v}, read v = some a ↔ P a v) {part : Option Json} {a : α} :
    part.bind read = some a ↔ ∃ v ∈ part, P a v := by
  simp only [Option.bind_eq_some_iff, hread, Option.mem_def]

theorem mapM_string?_eq_some_iff {items : List Json} {texts : List String} :
    items.mapM string? = some texts ↔ items = texts.map .string := by
  induction items generalizing texts with
  | nil => cases texts <;> simp
  | cons v items ih =>
    simp only [List.mapM_cons, Option.bind_eq_bind, Option.bind_eq_some_iff, string?_eq_some_iff,
      IsText, ih, Option.pure_def, Option.some.injEq]
    constructor
    · rintro ⟨s, rfl, rest, rfl, rfl⟩
      rfl
    · intro h
      cases texts with
      | nil => cases h
      | cons s rest =>
        obtain ⟨hs, hrest⟩ := List.cons.inj h
        exact ⟨s, hs, rest, hrest, rfl⟩

theorem insert_of_forall_lt {name : String} {value : α} {fields : List (String × α)}
    (h : ∀ f ∈ fields, f.1 < name) : insert name value fields = fields ++ [(name, value)] := by
  induction fields with
  | nil => rfl
  | cons f fields ih =>
    have hlt := h f List.mem_cons_self
    rw [insert, if_neg (String.lt_asymm hlt), if_pos hlt,
      ih fun g hg => h g (List.mem_cons_of_mem f hg)]
    rfl

theorem ordered_snoc (fields : List (String × α)) (f : String × α) :
    ordered (fields ++ [f]) = insert f.1 f.2 (ordered fields) := by
  rw [ordered, List.foldl_append]
  rfl

/-- Fields that are in order are kept as they are. -/
theorem ordered_eq_self {fields : List (String × α)} (h : fields.Pairwise fun a b => a.1 < b.1) :
    ordered fields = fields := by
  induction fields using List.reverseRecOn with
  | nil => rfl
  | append_singleton fields f ih =>
    -- The last name is the greatest, so that its field stays at the end.
    obtain ⟨hfields, -, hlast⟩ := List.pairwise_append.1 h
    rw [ordered_snoc, ih hfields, insert_of_forall_lt fun g hg => hlast g hg f List.mem_cons_self]

end Json

theorem State.label_injective : Function.Injective State.label := by
  intro s s' h
  cases s <;> cases s' <;> first | rfl | exact absurd h (by decide)

theorem Status.label_injective : Function.Injective Status.label := by
  intro s s' h
  cases s <;> cases s' <;> first | rfl | exact absurd h (by decide)

theorem State.ofJson?_eq_some_iff {v : Json} {s : State} :
    State.ofJson? v = some s ↔ v.Names s.label :=
  Json.plainVariant?_eq_some_iff State.mem_all State.label_injective

theorem Status.ofJson?_eq_some_iff {v : Json} {s : Status} :
    Status.ofJson? v = some s ↔ v.Names s.label :=
  Json.plainVariant?_eq_some_iff Status.mem_all Status.label_injective

namespace ParticipantId

def StandsIn (id : ParticipantId) (v : Json) : Prop := v = .string id.text

theorem ofJson?_eq_some_iff {v : Json} {id : ParticipantId} :
    ofJson? v = some id ↔ id.StandsIn v := by
  obtain ⟨text⟩ := id
  cases v <;> simp [ofJson?, StandsIn, Json.string?]

end ParticipantId

namespace Did

def StandsIn (did : Did) (v : Json) : Prop :=
  ∃ raw, v = .string raw ∧ Spells raw did.method did.specific

theorem ofJson?_eq_some_iff {v : Json} {did : Did} : ofJson? v = some did ↔ did.StandsIn v := by
  constructor
  · intro h
    unfold ofJson? at h
    split at h
    · next raw =>
      cases hparse : parse raw with
      | error e =>
        rw [hparse] at h
        cases h
      | ok did' =>
        rw [hparse] at h
        cases h
        exact ⟨raw, rfl, spells_of_parse_eq_ok hparse⟩
    · cases h
  · rintro ⟨raw, rfl, hspells⟩
    rw [ofJson?, hspells.parse_eq_ok]
    rfl

theorem standsIn_toJson (did : Did) : did.StandsIn did.toJson :=
  ⟨did.text, rfl, spells_of_parse_eq_ok did.parse_text⟩

end Did

namespace Instant

def StandsIn (t : Instant) (v : Json) : Prop := ∃ s, v = .string s ∧ ofText? s = some t

theorem ofJson?_eq_some_iff {v : Json} {t : Instant} : ofJson? v = some t ↔ t.StandsIn v := by
  cases v <;> simp [ofJson?, StandsIn, Json.string?]

theorem standsIn_toJson {t : Instant} (h : t.IsRegular) : t.StandsIn t.toJson :=
  ⟨t.text, rfl, ofText?_text h⟩

/-- Only regular instants can be read. -/
theorem StandsIn.isRegular {t : Instant} {v : Json} (h : t.StandsIn v) : t.IsRegular := by
  obtain ⟨s, -, hs⟩ := h
  exact isRegular_of_ofText? hs

end Instant

namespace ClaimSet

def StandsIn (c : ClaimSet) (v : Json) : Prop :=
  -- The fields may come in any order; of claims with one name, the last counts.
  ∃ fields, v = .object fields ∧ Json.ordered fields = c.entries

theorem ofJson?_eq_some_iff {v : Json} {c : ClaimSet} : ofJson? v = some c ↔ c.StandsIn v := by
  obtain ⟨entries, hordered⟩ := c
  cases v <;> simp [ofJson?, StandsIn, ofList]

theorem standsIn_toJson (c : ClaimSet) : c.StandsIn c.toJson :=
  ⟨c.entries, rfl, Json.ordered_eq_self c.ordered⟩

end ClaimSet

end Onboarding
