import Onboarding.Json.Basic
import Onboarding.Number.Decimal

namespace Onboarding.Json

open Number

def floatText (x : Double) : List Char :=
  -- Of two numerals that are as near, the one with an even last digit. It is positional where the
  -- decimal point falls at most four places in front of the digits or within sixteen.
  let d := x.shortest .even
  let ds := digits d.significand
  let body :=
    if x.isZero then ['0', '.', '0']
    else if 0 ≤ d.exponent ∧ d.position ≤ 16 then d.positional ++ ['.', '0']
    else if -5 < d.position ∧ d.position ≤ 16 then d.positional
    else
      let point := match ds with
        | c :: r => if r.isEmpty then [c] else c :: '.' :: r
        | [] => []
      let e := d.position - 1
      point ++ 'e' :: (if e < 0 then '-' else '+') :: digits e.natAbs
  if x.negative then '-' :: body else body

def hexDigit (n : Nat) : Char := if n < 10 then Char.ofNat (48 + n) else Char.ofNat (87 + n)

def escaped (c : Char) : List Char :=
  if c = '"' then ['\\', '"']
  else if c = '\\' then ['\\', '\\']
  else if c = '\n' then ['\\', 'n']
  else if c = '\r' then ['\\', 'r']
  else if c = '\t' then ['\\', 't']
  else if c.toNat = 8 then ['\\', 'b']
  else if c.toNat = 12 then ['\\', 'f']
  else if c.toNat < 32 then ['\\', 'u', '0', '0', hexDigit (c.toNat / 16), hexDigit (c.toNat % 16)]
  else [c]

def quoted (s : String) : String := String.ofList ('"' :: s.toList.flatMap escaped ++ ['"'])

def scalarText : Json → String
  | .bool b => if b then "true" else "false"
  | .int n => toString n
  | .float x => String.ofList (floatText x)
  | .string s => quoted s
  | _ => "null"

mutual

def compact : Json → String
  | .array items => "[" ++ ",".intercalate (compactItems items) ++ "]"
  | .object fields => "\x7b" ++ ",".intercalate (compactFields fields) ++ "\x7d"
  | v => scalarText v

def compactItems : List Json → List String
  | [] => []
  | v :: rest => compact v :: compactItems rest

def compactFields : List (String × Json) → List String
  | [] => []
  | (n, v) :: rest => (quoted n ++ ":" ++ compact v) :: compactFields rest

end

def block (indent : String) (opening closing : String) (lines : List String) : String :=
  if lines.isEmpty then opening ++ closing
  else
    opening ++ "\n" ++ ",\n".intercalate (lines.map fun l => indent ++ "  " ++ l) ++ "\n" ++
      indent ++ closing

mutual

def prettyFrom (indent : String) : Json → String
  | .array items => block indent "[" "]" (prettyItems (indent ++ "  ") items)
  | .object fields => block indent "\x7b" "\x7d" (prettyFields (indent ++ "  ") fields)
  | v => scalarText v

def prettyItems (indent : String) : List Json → List String
  | [] => []
  | v :: rest => prettyFrom indent v :: prettyItems indent rest

def prettyFields (indent : String) : List (String × Json) → List String
  | [] => []
  | (n, v) :: rest => (quoted n ++ ": " ++ prettyFrom indent v) :: prettyFields indent rest

end

def pretty (v : Json) : String := prettyFrom "" v

end Onboarding.Json
