import Onboarding.Number.Double

namespace Onboarding

open Number

inductive Json where
  | null
  | bool (value : Bool)
  | int (value : Int)
  | float (value : Double)
  | string (value : String)
  | array (items : List Json)
  | object (fields : List (String × Json))
deriving Inhabited

namespace Json

def lookup {α : Type} (name : String) : List (String × α) → Option α
  -- The first field with this name counts.
  | [] => none
  | (n, v) :: rest => if n = name then some v else lookup name rest

def insert {α : Type} (name : String) (value : α) : List (String × α) → List (String × α)
  -- A field with the same name goes.
  | [] => [(name, value)]
  | (n, v) :: rest =>
    if name < n then (name, value) :: (n, v) :: rest
    else if n < name then (n, v) :: insert name value rest
    else (name, value) :: rest

def ordered {α : Type} (fields : List (String × α)) : List (String × α) :=
  -- Of fields with one name, the last counts.
  fields.foldl (fun acc f => insert f.1 f.2 acc) []

/-- Fields that are in order stay so when one is put in its place. -/
theorem pairwise_insert {α : Type} (name : String) (value : α) (fields : List (String × α))
    (h : fields.Pairwise fun a b => a.1 < b.1) :
    (insert name value fields).Pairwise fun a b => a.1 < b.1 := by
  -- All names of the result are `name` or names of `fields`, so only the head is to be compared.
  have mem : ∀ (l : List (String × α)) (x), x ∈ insert name value l → x.1 = name ∨ x ∈ l := by
    intro l
    induction l with
    | nil => intro x hx; simp [insert] at hx; exact .inl (hx ▸ rfl)
    | cons f rest ih =>
      intro x hx
      rw [insert] at hx
      split at hx
      · rcases List.mem_cons.1 hx with rfl | hx
        · exact .inl rfl
        · exact .inr hx
      · split at hx
        · rcases List.mem_cons.1 hx with rfl | hx
          · exact .inr List.mem_cons_self
          · exact (ih x hx).imp id (List.mem_cons_of_mem _)
        · rcases List.mem_cons.1 hx with rfl | hx
          · exact .inl rfl
          · exact .inr (List.mem_cons_of_mem _ hx)
  induction fields with
  | nil => simp [insert]
  | cons f rest ih =>
    obtain ⟨hf, hrest⟩ := List.pairwise_cons.1 h
    rw [insert]
    split
    · next hlt =>
      refine List.pairwise_cons.2 ⟨fun x hx => ?_, h⟩
      rcases List.mem_cons.1 hx with rfl | hx
      · exact hlt
      · exact String.lt_trans hlt (hf x hx)
    · next hge =>
      split
      · next hlt =>
        refine List.pairwise_cons.2 ⟨fun x hx => ?_, ih hrest⟩
        rcases mem rest x hx with hx | hx
        · exact hx ▸ hlt
        · exact hf x hx
      · next hle =>
        have heq : f.1 = name :=
          String.le_antisymm (String.not_lt.1 hge) (String.not_lt.1 hle)
        exact List.pairwise_cons.2 ⟨fun x hx => heq ▸ hf x hx, hrest⟩

/-- The fields are ordered by their names, and no name occurs twice. -/
theorem pairwise_ordered {α : Type} (fields : List (String × α)) :
    (ordered fields).Pairwise fun a b => a.1 < b.1 := by
  have step : ∀ (l acc : List (String × α)), acc.Pairwise (fun a b => a.1 < b.1) →
      (l.foldl (fun acc f => insert f.1 f.2 acc) acc).Pairwise fun a b => a.1 < b.1 := by
    intro l
    induction l with
    | nil => exact fun acc h => h
    | cons f rest ih => exact fun acc h => ih _ (pairwise_insert f.1 f.2 acc h)
  exact step fields [] List.Pairwise.nil

def ofFields (fields : List (String × Json)) : Json := .object (ordered fields)

def field? (name : String) : Json → Option Json
  | .object fields => lookup name fields
  | _ => none

def string? : Json → Option String
  | .string s => some s
  | _ => none

def bool? : Json → Option Bool
  | .bool b => some b
  | _ => none

def int? : Json → Option Int
  | .int n => some n
  | _ => none

def array? : Json → Option (List Json)
  | .array items => some items
  | _ => none

def nat? (limit : Nat) : Json → Option Nat
  | .int n => if 0 ≤ n ∧ n ≤ limit then some n.toNat else none
  | _ => none

def part? (count place : Nat) (name : String) : Json → Option Json
  -- By its name in an object, or by its place in an array of `count` items.
  | .object fields => lookup name fields
  | .array items => if items.length = count then items[place]? else none
  | _ => none

def optional? {α : Type} (read : Json → Option α) : Option Json → Option (Option α)
  | none | some .null => some none
  | some v => (read v).map some

def variant? : Json → Option (String × Json)
  -- A string, or an object of one field.
  | .string name => some (name, .null)
  | .object [field] => some field
  | _ => none

def plainVariant? {α : Type} (items : List α) (label : α → String) (v : Json) : Option α :=
  match variant? v with
  | some (name, .null) => items.find? fun a => label a == name
  | _ => none

mutual

def same : Json → Json → Bool
  -- Numbers with a fraction are compared by their value.
  | .null, .null => true
  | .bool a, .bool b => a == b
  | .int a, .int b => a == b
  | .float a, .float b => a.same b
  | .string a, .string b => a == b
  | .array a, .array b => sameItems a b
  | .object a, .object b => sameFields a b
  | _, _ => false

def sameItems : List Json → List Json → Bool
  | [], [] => true
  | a :: as, b :: bs => same a b && sameItems as bs
  | _, _ => false

def sameFields : List (String × Json) → List (String × Json) → Bool
  | [], [] => true
  | (m, a) :: as, (n, b) :: bs => m == n && same a b && sameFields as bs
  | _, _ => false

end

end Json

end Onboarding
