import Onboarding.Json.Token

namespace Onboarding.Json

structure Builder (α : Type) where
  leaf : Token → Option α
  key : List Nat → Option String
  array : List α → α
  object : List (String × α) → α

inductive Frame (α : Type) where
  -- What was read last is at the front; an object also knows the name whose value is next.
  | array (items : List α)
  | object (fields : List (String × α)) (name : String)

inductive Expected where
  | value
  | valueOrClose
  | commaOrClose
  | name
  | nameOrClose
  | colon

inductive Progress (α : Type) where
  | within (stack : List (Frame α)) (expected : Expected)
  | complete (value : α)

namespace Builder

variable {α : Type}

def place (v : α) : List (Frame α) → Progress α
  | [] => .complete v
  | .array items :: stack => .within (.array (v :: items) :: stack) .commaOrClose
  | .object fields name :: stack =>
    .within (.object ((name, v) :: fields) name :: stack) .commaOrClose

def start (b : Builder α) (stack : List (Frame α)) : Token → Option (Progress α)
  | .openArray => some (.within (.array [] :: stack) .valueOrClose)
  | .openObject => some (.within (.object [] "" :: stack) .nameOrClose)
  | t => (b.leaf t).map (place · stack)

def close (b : Builder α) (stack : List (Frame α)) (t : Token) : Option (Progress α) :=
  match t, stack with
  | .closeArray, .array items :: stack => some (place (b.array items.reverse) stack)
  | .closeObject, .object fields _ :: stack => some (place (b.object fields.reverse) stack)
  | _, _ => none

def continue? (stack : List (Frame α)) : Option (Progress α) :=
  match stack with
  | .array _ :: _ => some (.within stack .value)
  | .object .. :: _ => some (.within stack .name)
  | [] => none

def name (b : Builder α) (stack : List (Frame α)) (t : Token) : Option (Progress α) :=
  match t, stack with
  | .string units, .object fields _ :: stack =>
    (b.key units).map fun name => .within (.object fields name :: stack) .colon
  | _, _ => none

def step (b : Builder α) (stack : List (Frame α)) (expected : Expected) (t : Token) :
    Option (Progress α) :=
  match expected, t with
  | .value, t => b.start stack t
  | .valueOrClose, .closeArray => b.close stack .closeArray
  | .valueOrClose, t => b.start stack t
  | .commaOrClose, .comma => continue? stack
  | .commaOrClose, t => b.close stack t
  | .name, t => b.name stack t
  | .nameOrClose, .closeObject => b.close stack .closeObject
  | .nameOrClose, t => b.name stack t
  | .colon, .colon => some (.within stack .value)
  | .colon, _ => none

def run (b : Builder α) (stack : List (Frame α)) (expected : Expected) :
    List Token → Option (α × List Token)
  | [] => none
  | t :: ts =>
    match b.step stack expected t with
    | none => none
    | some (.complete v) => some (v, ts)
    | some (.within stack expected) => b.run stack expected ts

def read (b : Builder α) (ts : List Token) : Option (α × List Token) := b.run [] .value ts

end Builder

def stringOfUnits? (units : List Nat) : Option String := (Token.text? units).map String.ofList

def valueBuilder : Builder Json where
  leaf
    | .null => some .null
    | .bool b => some (.bool b)
    | .number n => n.toJson?
    | .string units => (stringOfUnits? units).map .string
    | _ => none
  key := stringOfUnits?
  array := .array
  object := ofFields

def skipBuilder : Builder Unit where
  leaf
    | .null | .bool _ | .number _ | .string _ => some ()
    | _ => none
  key := fun _ => some ""
  array := fun _ => ()
  object := fun _ => ()

def ofText? (s : String) : Option Json :=
  match valueBuilder.read (Token.ofText s.toList) with
  | some (v, []) => some v
  | _ => none

end Onboarding.Json
