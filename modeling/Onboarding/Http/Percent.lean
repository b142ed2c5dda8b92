import Onboarding.Json.Token

namespace Onboarding.Http

def hexByte? (a b : Char) : Option UInt8 := (Json.Token.hex4? '0' '0' a b).map Nat.toUInt8

def percentDecoded : List Char → List UInt8
  -- A percent sign that two hexadecimal digits do not follow is left as it is.
  | [] => []
  | '%' :: a :: b :: rest =>
    match hexByte? a b with
    | some byte => byte :: percentDecoded rest
    | none => String.utf8EncodeChar '%' ++ percentDecoded (a :: b :: rest)
  | c :: rest => String.utf8EncodeChar c ++ percentDecoded rest

def following (first : UInt8) : Option (Nat × UInt8 × UInt8) :=
  -- How many bytes follow the first one of a character beyond ASCII, and the bounds of the next
  -- one.
  if 0xc2 ≤ first ∧ first ≤ 0xdf then some (1, 0x80, 0xbf)
  else if first = 0xe0 then some (2, 0xa0, 0xbf)
  else if first = 0xed then some (2, 0x80, 0x9f)
  else if 0xe1 ≤ first ∧ first ≤ 0xef then some (2, 0x80, 0xbf)
  else if first = 0xf0 then some (3, 0x90, 0xbf)
  else if 0xf1 ≤ first ∧ first ≤ 0xf3 then some (3, 0x80, 0xbf)
  else if first = 0xf4 then some (3, 0x80, 0x8f)
  else none

def continuation (count : Nat) (low high : UInt8) (bytes : List UInt8) : List UInt8 :=
  match count, bytes with
  | count + 1, b :: rest =>
    if low ≤ b ∧ b ≤ high then b :: continuation count 0x80 0xbf rest else []
  | _, _ => []

def codePoint (first : UInt8) (rest : List UInt8) : Nat :=
  let lead := first.toNat % Nat.pow 2 (6 - rest.length)
  rest.foldl (fun n b => n * 64 + b.toNat % 64) lead

def characters : List UInt8 → List (Option Char)
  -- None stands in place of each longest part of what is no character.
  | [] => []
  | first :: rest =>
    if first < 0x80 then some (Char.ofNat first.toNat) :: characters rest
    else
      match following first with
      | none => none :: characters rest
      | some (count, low, high) =>
        let more := continuation count low high rest
        (if more.length = count then some (Char.ofNat (codePoint first more)) else none) ::
          characters (rest.drop more.length)
termination_by bytes => bytes.length
decreasing_by all_goals simp only [List.length_cons, List.length_drop]; omega

def textOfBytes? (bytes : List UInt8) : Option String :=
  ((characters bytes).mapM id).map String.ofList

def textOfBytes (bytes : List UInt8) : String :=
  String.ofList ((characters bytes).map (·.getD '\ufffd'))

end Onboarding.Http
