import Onboarding.Json.Reader

/-!
The body of a request to register: a JSON object with a field `did`, or an array of that one item.
It is read only as far as it has to be, and what is wrong first decides: a body that is no JSON, or
one that is not of this form.
-/

namespace Onboarding.Http

open Json

inductive BodyError where
  /-- The text is no JSON. -/
  | malformed
  /-- The text is JSON of another form. -/
  | unexpected
deriving DecidableEq

namespace Submission

def notAString : Token → BodyError
  | .openArray | .openObject | .null | .bool _ => .unexpected
  | .number n => if n.toJson?.isSome then .unexpected else .malformed
  | _ => .malformed

def readText : List Token → Except BodyError (String × List Token)
  | .string units :: rest =>
    match stringOfUnits? units with
    | some s => .ok (s, rest)
    | none => .error .malformed
  | t :: _ => .error (notAString t)
  | [] => .error .malformed

def skipValue : List Token → Except BodyError (List Token)
  | .colon :: rest =>
    match skipBuilder.read rest with
    | some (_, rest) => .ok rest
    | none => .error .malformed
  | _ => .error .malformed

def readFields (fuel : Nat) (found : Option String) (ts : List Token) : Except BodyError String :=
  -- Here `found` is the value of `did` if it was among the fields before.
  match fuel, ts with
  | fuel + 1, .string units :: rest =>
    match stringOfUnits? units with
    | none => .error .malformed
    | some "did" =>
      if found.isSome then .error .unexpected
      else
        match rest with
        | .colon :: rest => do
          let (did, rest) ← readText rest
          readMore fuel (some did) rest
        | _ => .error .malformed
    | some _ => do
      let rest ← skipValue rest
      readMore fuel found rest
  | _, _ => .error .malformed
where
  /-- Reads what comes after a field. -/
  readMore (fuel : Nat) (found : Option String) : List Token → Except BodyError String
    | .comma :: rest => readFields fuel found rest
    | .closeObject :: _ => found.elim (.error .unexpected) .ok
    | _ => .error .malformed

def read (body : String) : Except BodyError String :=
  -- What follows the value does not matter.
  match Token.ofText body.toList with
  | .openObject :: .closeObject :: _ => .error .unexpected
  | .openObject :: fields => readFields fields.length none fields
  | .openArray :: .closeArray :: _ => .error .unexpected
  | .openArray :: items => do
    let (did, rest) ← readText items
    match rest with
    | .closeArray :: _ => return did
    | _ => throw .malformed
  | .string units :: _ => .error (if (stringOfUnits? units).isSome then .unexpected else .malformed)
  | t :: _ => .error (notAString t)
  | [] => .error .malformed

end Submission

end Onboarding.Http
