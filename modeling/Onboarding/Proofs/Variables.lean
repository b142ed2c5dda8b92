import Mathlib.Algebra.Order.Ring.Rat
import Mathlib.Tactic.Linarith
import Onboarding.Proofs.Growth

namespace Onboarding

open Number

structure Quantity where
  key : String
  limit : Nat
  default : Nat
  positive : Bool
deriving DecidableEq

namespace Quantity

def batchSize : Quantity := ⟨"REGISTRY_BATCH_SIZE", max64, 50, true⟩

def workers : Quantity := ⟨"REGISTRY_WORKERS", max64, 1, true⟩

def identityAttempts : Quantity := ⟨"REGISTRY_IDENTITY_MAX_ATTEMPTS", max32, 5, true⟩

def credentialsAttempts : Quantity := ⟨"REGISTRY_CREDENTIALS_MAX_ATTEMPTS", max32, 5, true⟩

def policyAttempts : Quantity := ⟨"REGISTRY_POLICY_MAX_ATTEMPTS", max32, 5, true⟩

def baseMillis : Quantity := ⟨"REGISTRY_BACKOFF_BASE_MS", max64, 1000, false⟩

def capMillis : Quantity := ⟨"REGISTRY_BACKOFF_CAP_MS", max64, 300000, false⟩

def stallSeconds : Quantity := ⟨"REGISTRY_STALL_THRESHOLD_SECS", max64, 900, false⟩

def pollMillis : Quantity := ⟨"REGISTRY_POLL_INTERVAL_MS", max64, 5000, true⟩

def callMillis : Quantity := ⟨"REGISTRY_CALL_TIMEOUT_MS", max64, 10000, true⟩

def read? (q : Quantity) (raw : String) : Option Nat := whole? q.limit (Text.trimmed raw)

end Quantity

inductive Variable where
  | quantity (q : Quantity)
  | factor

namespace Variable

def key : Variable → String
  | .quantity q => q.key
  | .factor => "REGISTRY_BACKOFF_MULTIPLIER"

def inOrder : List Variable := [
  .quantity .batchSize, .quantity .workers, .quantity .identityAttempts,
  .quantity .credentialsAttempts, .quantity .policyAttempts, .factor, .quantity .baseMillis,
  .quantity .capMillis, .quantity .stallSeconds, .quantity .pollMillis, .quantity .callMillis]

end Variable

def Number.Double.read? (raw : String) : Option Double := ofText? (Text.trimmed raw)

def Number.Double.IsFactor (x : Double) : Prop :=
  -- No wait shrinks by it.
  ∃ q : Rat, x.toExtended = .finite q ∧ 1 ≤ q

namespace Environment

variable {α β : Type}

def Gives (env : Environment) (key : String) (default : α) (read : String → Option α) (a : α) :
    Prop :=
  (env key = none ∧ a = default) ∨ ∃ raw, env key = some raw ∧ read raw = some a

def Garbles (env : Environment) (key : String) (read : String → Option α) (raw : String) : Prop :=
  env key = some raw ∧ read raw = none

def Counts (env : Environment) (q : Quantity) (n : Nat) : Prop :=
  env.Gives q.key q.default q.read? n

def Grows (env : Environment) (x : Double) : Prop :=
  env.Gives Variable.factor.key (.nearest false 2) Double.read? x

def Opens (env : Environment) (port : Nat) : Prop :=
  -- The text of a port is read with the white space around it.
  env.Gives "APP_PORT" 3000 portOfText? port

inductive Offends (env : Environment) : Variable → String → Prop where
  | garbled {q : Quantity} {raw : String} (h : env.Garbles q.key q.read? raw) :
      Offends env (.quantity q) raw
  | zero {q : Quantity} (hpositive : q.positive = true) (h : env.Counts q 0) :
      Offends env (.quantity q) "0"
  | garbledFactor {raw : String} (h : env.Garbles Variable.factor.key Double.read? raw) :
      Offends env .factor raw
  | shrinking {x : Double} (h : env.Grows x) (hx : ¬x.IsFactor) : Offends env .factor x.text
  | outOfBounds {base cap : Nat} (hbase : env.Counts .baseMillis base)
      (hcap : env.Counts .capMillis cap) (h : cap < base ∨ 86400000 < cap) :
      Offends env (.quantity .capMillis) (toString cap)

def Accepts (env : Environment) (vs : List Variable) : Prop :=
  ∀ v ∈ vs, ∀ text, ¬env.Offends v text

/-- The first of the variables that offends, with the text that is reported. -/
inductive FirstOffence (env : Environment) : List Variable → Variable → String → Prop where
  | here {v : Variable} {vs : List Variable} {text : String} (h : env.Offends v text) :
      FirstOffence env (v :: vs) v text
  | later {v w : Variable} {vs : List Variable} {text : String}
      (hv : ∀ text, ¬env.Offends v text) (h : FirstOffence env vs w text) :
      FirstOffence env (v :: vs) w text

variable {env : Environment} {q : Quantity} {v w : Variable} {vs ws : List Variable}

theorem Gives.unique {key : String} {default a b : α} {read : String → Option α}
    (ha : env.Gives key default read a) (hb : env.Gives key default read b) : a = b := by
  rcases ha with ⟨hnone, rfl⟩ | ⟨raw, hraw, ha⟩
  · rcases hb with ⟨-, rfl⟩ | ⟨raw, hraw, -⟩
    · rfl
    · rw [hnone] at hraw
      cases hraw
  · rcases hb with ⟨hnone, -⟩ | ⟨raw', hraw', hb⟩
    · rw [hnone] at hraw
      cases hraw
    · rw [hraw] at hraw'
      cases hraw'
      rw [ha] at hb
      exact Option.some.inj hb

theorem Garbles.not_gives {key raw : String} {default a : α} {read : String → Option α}
    (h : env.Garbles key read raw) : ¬env.Gives key default read a := by
  obtain ⟨hraw, hread⟩ := h
  rintro (⟨hnone, -⟩ | ⟨raw', hraw', hread'⟩)
  · rw [hnone] at hraw
    cases hraw
  · rw [hraw] at hraw'
    cases hraw'
    rw [hread] at hread'
    cases hread'

theorem Garbles.unique {key raw raw' : String} {read : String → Option α}
    (h : env.Garbles key read raw) (h' : env.Garbles key read raw') : raw = raw' := by
  have hraw := h.1.symm.trans h'.1
  exact Option.some.inj hraw

/-- There is one text to report of a variable. -/
theorem Offends.unique {text text' : String} (h : env.Offends v text) (h' : env.Offends v text') :
    text = text' := by
  cases h with
  | garbled h =>
    cases h' with
    | garbled h' => exact h.unique h'
    | zero _ h' => exact absurd h' h.not_gives
    | outOfBounds _ h' _ => exact absurd h' h.not_gives
  | zero hpositive h =>
    cases h' with
    | garbled h' => exact absurd h h'.not_gives
    | zero => rfl
    | outOfBounds => exact absurd hpositive Bool.false_ne_true
  | garbledFactor h =>
    cases h' with
    | garbledFactor h' => exact h.unique h'
    | shrinking h' => exact absurd h' h.not_gives
  | shrinking h =>
    cases h' with
    | garbledFactor h' => exact absurd h h'.not_gives
    | shrinking h' => rw [h.unique h']
  | outOfBounds _ h _ =>
    cases h' with
    | garbled h' => exact absurd h h'.not_gives
    | zero hpositive => exact absurd hpositive Bool.false_ne_true
    | outOfBounds _ h' _ => rw [h.unique h']

theorem FirstOffence.exists_mem {text : String} (h : env.FirstOffence vs v text) :
    v ∈ vs ∧ env.Offends v text := by
  induction h with
  | here h => exact ⟨List.mem_cons_self, h⟩
  | later _ _ ih => exact ⟨List.mem_cons_of_mem _ ih.1, ih.2⟩

theorem FirstOffence.not_accepts {text : String} (h : env.FirstOffence vs v text) :
    ¬env.Accepts vs := by
  obtain ⟨hmem, hoffends⟩ := h.exists_mem
  exact fun haccepts => haccepts v hmem text hoffends

/-- There is one first offence only, with one text. -/
theorem FirstOffence.unique {text text' : String} (h : env.FirstOffence vs v text)
    (h' : env.FirstOffence vs w text') : v = w ∧ text = text' := by
  induction h with
  | here h =>
    cases h' with
    | here h' => exact ⟨rfl, h.unique h'⟩
    | later hv _ => exact absurd h (hv _)
  | later hv _ ih =>
    cases h' with
    | here h' => exact absurd h' (hv _)
    | later _ h' => exact ih h'

theorem FirstOffence.append_right {text : String} (h : env.FirstOffence vs v text)
    (ws : List Variable) : env.FirstOffence (vs ++ ws) v text := by
  induction h with
  | here h => exact .here h
  | later hv _ ih => exact .later hv ih

/-- An offence behind variables that do not offend is still the first one. -/
theorem FirstOffence.append_left {text : String} (hvs : env.Accepts vs)
    (h : env.FirstOffence ws v text) : env.FirstOffence (vs ++ ws) v text := by
  induction vs with
  | nil => exact h
  | cons w vs ih =>
    apply FirstOffence.later (hvs w List.mem_cons_self)
    exact ih fun u hu => hvs u (List.mem_cons_of_mem w hu)

/-- A computation that looks at these variables, in this order: it fails with the first one that
offends, and otherwise returns what is asked for. -/
def Looks (env : Environment) (vs : List Variable) (x : Except SettingsError α) (good : α → Prop) :
    Prop :=
  (∃ v text, env.FirstOffence vs v text ∧ x = .error (.invalidValue v.key text)) ∨
    env.Accepts vs ∧ ∃ a, x = .ok a ∧ good a

/-- One computation after the other looks at the variables of both, in this order. -/
theorem Looks.bind {x : Except SettingsError α} {f : α → Except SettingsError β}
    {good : α → Prop} {good' : β → Prop} (hx : env.Looks vs x good)
    (hf : ∀ a, good a → env.Looks ws (f a) good') : env.Looks (vs ++ ws) (x >>= f) good' := by
  rcases hx with ⟨v, text, hfirst, rfl⟩ | ⟨hvs, a, rfl, ha⟩
  · exact Or.inl ⟨v, text, hfirst.append_right ws, rfl⟩
  · rcases hf a ha with ⟨v, text, hfirst, hfa⟩ | ⟨hws, b, hfa, hb⟩
    · exact Or.inl ⟨v, text, hfirst.append_left hvs, hfa⟩
    · refine Or.inr ⟨?_, b, hfa, hb⟩
      intro v hv
      rcases List.mem_append.1 hv with hv | hv
      · exact hvs v hv
      · exact hws v hv

theorem Looks.ok {a : α} {good : α → Prop} (h : good a) : env.Looks [] (.ok a) good :=
  Or.inr ⟨fun _ hv => absurd hv List.not_mem_nil, a, rfl, h⟩

/-- What is wrong with the first variable is reported. -/
theorem Looks.error {text : String} {good : α → Prop} (h : env.Offends v text) :
    env.Looks (v :: vs) (.error (.invalidValue v.key text)) good :=
  Or.inl ⟨v, text, .here h, rfl⟩

/-- A variable is passed over that does not offend. -/
theorem Looks.later {x : Except SettingsError α} {good : α → Prop}
    (hv : ∀ text, ¬env.Offends v text) (h : env.Looks vs x good) : env.Looks (v :: vs) x good := by
  rcases h with ⟨w, text, hfirst, hx⟩ | ⟨hvs, hx⟩
  · exact Or.inl ⟨w, text, .later hv hfirst, hx⟩
  · refine Or.inr ⟨?_, hx⟩
    intro w hw
    rcases List.mem_cons.1 hw with rfl | hw
    · exact hv
    · exact hvs w hw

/-- A variable is read, or it has a text that cannot be. -/
theorem value_cases (env : Environment) (key : String) (default : α) (read : String → Option α) :
    (∃ a, env.Gives key default (fun raw => read (Text.trimmed raw)) a ∧
      env.value key default read = .ok a) ∨
    ∃ raw, env.Garbles key (fun raw => read (Text.trimmed raw)) raw ∧
      env.value key default read = .error (.invalidValue key raw) := by
  unfold value
  cases hset : env key with
  | none => exact Or.inl ⟨default, Or.inl ⟨hset, rfl⟩, rfl⟩
  | some raw =>
    cases hread : read (Text.trimmed raw) with
    | none => exact Or.inr ⟨raw, ⟨hset, hread⟩, by simp [hread]⟩
    | some a => exact Or.inl ⟨a, Or.inr ⟨raw, hset, hread⟩, by simp [hread]⟩

/-- Only a variable with bounds of its own offends by a number that it gives. -/
theorem not_offends {n : Nat} (hq : q ≠ .capMillis) (h : env.Counts q n)
    (hn : q.positive = true → 0 < n) (text : String) : ¬env.Offends (.quantity q) text := by
  intro hoffends
  cases hoffends with
  | garbled hgarbles => exact hgarbles.not_gives h
  | zero hpositive hzero =>
    have hpos := hn hpositive
    have heq := h.unique hzero
    omega
  | outOfBounds => exact hq rfl

theorem looks_natural (env : Environment) (q : Quantity) (hq : q ≠ .capMillis)
    (hpositive : q.positive = false) :
    env.Looks [.quantity q] (env.natural q.key q.limit q.default) (env.Counts q) := by
  rcases env.value_cases q.key q.default (whole? q.limit) with ⟨n, hn, hvalue⟩ | ⟨raw, hraw, hvalue⟩
  · rw [natural, hvalue]
    apply Looks.later _ (Looks.ok hn)
    apply not_offends hq hn
    intro h
    rw [hpositive] at h
    cases h
  · rw [natural, hvalue]
    exact Looks.error (.garbled hraw)

/-- A whole number that may not be zero offends with a zero as well. -/
theorem looks_positive (env : Environment) (q : Quantity) (hq : q ≠ .capMillis)
    (hpositive : q.positive = true) :
    env.Looks [.quantity q] (env.positive q.key q.limit q.default)
      fun n => env.Counts q n ∧ 0 < n := by
  rw [positive, natural]
  rcases env.value_cases q.key q.default (whole? q.limit) with ⟨n, hn, hvalue⟩ | ⟨raw, hraw, hvalue⟩
  · rw [hvalue]
    change env.Looks _ (if 0 < n then .ok n else .error (.invalidValue q.key (toString n))) _
    by_cases hpos : 0 < n
    · rw [if_pos hpos]
      exact Looks.later (not_offends hq hn fun _ => hpos) (Looks.ok ⟨hn, hpos⟩)
    · have hzero : n = 0 := by omega
      rw [if_neg hpos, hzero]
      exact Looks.error (.zero hpositive (hzero ▸ hn))
  · rw [hvalue]
    exact Looks.error (.garbled hraw)

end Environment

theorem Number.Double.magnitude_nonneg (x : Double) : 0 ≤ x.magnitude :=
  mul_nonneg (Nat.cast_nonneg _) (zpow_nonneg (by norm_num) _)

theorem Backoff.isGrowing_iff {x : Double} : isGrowing x = true ↔ x.IsFactor := by
  have hmagnitude := x.magnitude_nonneg
  by_cases hfinite : x.isFinite = true
  · have hexponent : (x.exponent == 2047) = false := by simpa [Double.isFinite] using hfinite
    have hvalue : x.toExtended = .finite (if x.negative then -x.magnitude else x.magnitude) := by
      simp [Double.toExtended, Double.isNan, Double.isInfinite, hexponent]
    rw [Double.IsFactor, hvalue]
    cases hnegative : x.negative with
    | false => simp [isGrowing, hfinite, hnegative]
    | true =>
      constructor
      · simp [isGrowing, hnegative]
      · rintro ⟨q, hq, hone⟩
        cases hq
        simp only [if_true] at hone
        linarith
  · have hexponent : x.exponent = 2047 := by simpa [Double.isFinite] using hfinite
    constructor
    · simp [isGrowing, hfinite]
    · rintro ⟨q, hq, -⟩
      -- Without a finite value there is an infinity or no number.
      by_cases hfraction : x.fraction = 0
      · simp [Double.toExtended, Double.isNan, Double.isInfinite, hexponent, hfraction] at hq
      · simp [Double.toExtended, Double.isNan, hexponent, hfraction] at hq

end Onboarding
