import Onboarding.Json.Basic
import Onboarding.Number.Whole

namespace Onboarding.Json

open Number

structure Numeral where
  negative : Bool
  whole : List Char
  fraction : Option (List Char)
  power : Option (Bool × List Char)

/-- A token. The characters of a string are numbers here, since an escape may be half of a
character. -/
inductive Token where
  | openArray
  | closeArray
  | openObject
  | closeObject
  | comma
  | colon
  | null
  | bool (value : Bool)
  | number (value : Numeral)
  | string (units : List Nat)
  | malformed

namespace Numeral

def gather (n : Nat) : List Char → Nat × Nat × Nat
  -- Digits are taken for as long as `n` stays within 64 bits.
  | [] => (n, 0, 0)
  | c :: cs =>
    let next := n * 10 + digitValue c
    if next ≤ max64 then
      let (m, taken, left) := gather next cs
      (m, taken + 1, left)
    else (n, 0, cs.length + 1)

def scaled? (x : Double) (power : Int) : Option Double :=
  -- The power of ten is taken in steps that a double can hold.
  if power.natAbs ≤ 308 then
    let ten := (Decimal.mk 1 power.natAbs).toDouble false
    let r := if 0 ≤ power then x.magnitude * ten.magnitude else x.magnitude / ten.magnitude
    let y := Double.nearest false r
    if y.isInfinite then none else some y
  else if x.isZero then some x
  else if 0 ≤ power then none
  else
    let small := (Decimal.mk 1 308).toDouble false
    scaled? (.nearest false (x.magnitude / small.magnitude)) (power + 308)
termination_by power.natAbs
decreasing_by omega

def toDouble? (n : Numeral) : Option Double :=
  -- The digits as far as 64 bits hold them, times a power of ten, each rounded.
  let (start, _, beyond) := gather 0 n.whole
  let (m, taken, _) := gather start (n.fraction.getD [])
  let shift : Int := (beyond : Int) - taken
  let signed (x : Double) : Double := { x with negative := n.negative }
  match n.power with
  | none => (scaled? (.nearest false m) shift).map signed
  | some (minus, ds) =>
    let p := ofDigits ds
    if p ≤ 2147483647 then
      (scaled? (.nearest false m) (if minus then shift - p else shift + p)).map signed
    else if m ≠ 0 ∧ ¬ minus then none
    else some (.zero n.negative)

def toJson? (n : Numeral) : Option Json :=
  -- A whole number if it is written as one and fits in 64 bits. A negative zero is a double.
  let m := ofDigits n.whole
  if n.fraction.isSome || n.power.isSome then n.toDouble?.map .float
  else if n.negative then
    if m = 0 ∨ 9223372036854775808 < m then n.toDouble?.map .float else some (.int (-m))
  else if m ≤ max64 then some (.int m)
  else n.toDouble?.map .float

def readFraction : List Char → Option (Option (List Char) × Nat)
  | '.' :: r =>
    let ds := r.takeWhile Char.isDigit
    if ds.isEmpty then none else some (some ds, 1 + ds.length)
  | _ => some (none, 0)

def readPower : List Char → Option (Option (Bool × List Char) × Nat)
  | [] => some (none, 0)
  | e :: r =>
    if e = 'e' ∨ e = 'E' then
      let signs := if r.head? = some '-' ∨ r.head? = some '+' then 1 else 0
      let ds := (r.drop signs).takeWhile Char.isDigit
      if ds.isEmpty then none
      else some (some (r.head? = some '-', ds), 1 + signs + ds.length)
    else some (none, 0)

def read (cs : List Char) : Option (Numeral × Nat) :=
  -- Only a zero that is the whole part may lead it.
  let signs := if cs.head? = some '-' then 1 else 0
  let whole := (cs.drop signs).takeWhile Char.isDigit
  if whole.isEmpty || (whole.length ≠ 1 && whole.head? = some '0') then none
  else
    let start := signs + whole.length
    (readFraction (cs.drop start)).bind fun (fraction, n) =>
      (readPower (cs.drop (start + n))).map fun (power, m) =>
        (⟨signs = 1, whole, fraction, power⟩, start + n + m)

end Numeral

namespace Token

def isSpace (c : Char) : Bool := c == ' ' || c == '\n' || c == '\t' || c == '\r'

def hex4? (a b c d : Char) : Option Nat :=
  let digit (c : Char) : Option Nat :=
    if c.isDigit then some (c.toNat - 48)
    else if 'a' ≤ c ∧ c ≤ 'f' then some (c.toNat - 87)
    else if 'A' ≤ c ∧ c ≤ 'F' then some (c.toNat - 55)
    else none
  match digit a, digit b, digit c, digit d with
  | some a, some b, some c, some d => some (((a * 16 + b) * 16 + c) * 16 + d)
  | _, _, _, _ => none

def escape? : Char → Option Nat
  | '"' => some 34
  | '\\' => some 92
  | '/' => some 47
  | 'b' => some 8
  | 'f' => some 12
  | 'n' => some 10
  | 'r' => some 13
  | 't' => some 9
  | _ => none

def readString : List Char → Option (List Nat × Nat)
  | [] => none
  | '"' :: _ => some ([], 1)
  | '\\' :: 'u' :: a :: b :: c :: d :: rest =>
    (hex4? a b c d).bind fun u => (readString rest).map fun (us, n) => (u :: us, n + 6)
  | '\\' :: e :: rest =>
    (escape? e).bind fun u => (readString rest).map fun (us, n) => (u :: us, n + 2)
  | c :: rest =>
    if c.toNat < 32 ∨ c = '\\' then none
    else (readString rest).map fun (us, n) => (c.toNat :: us, n + 1)

def text? : List Nat → Option (List Char)
  -- Two halves make a character; a half that stands alone makes none.
  | [] => some []
  | u :: rest =>
    if 0xd800 ≤ u ∧ u < 0xdc00 then
      match rest with
      | v :: rest =>
        if 0xdc00 ≤ v ∧ v < 0xe000 then
          (text? rest).map (Char.ofNat (0x10000 + (u - 0xd800) * 0x400 + (v - 0xdc00)) :: ·)
        else none
      | [] => none
    else if 0xdc00 ≤ u ∧ u < 0xe000 then none
    else (text? rest).map (Char.ofNat u :: ·)

def ofText : List Char → List Token
  | [] => []
  | c :: rest =>
    if isSpace c then ofText rest
    else if c = '[' then .openArray :: ofText rest
    else if c = ']' then .closeArray :: ofText rest
    else if c = '{' then .openObject :: ofText rest
    else if c = '}' then .closeObject :: ofText rest
    else if c = ',' then .comma :: ofText rest
    else if c = ':' then .colon :: ofText rest
    else if c = '"' then
      match readString rest with
      | some (units, n) => .string units :: ofText (rest.drop n)
      | none => [.malformed]
    else if c = '-' ∨ c.isDigit then
      match Numeral.read (c :: rest) with
      | some (n, count) => .number n :: ofText (rest.drop (count - 1))
      | none => [.malformed]
    else if c = 't' ∧ rest.take 3 = ['r', 'u', 'e'] then .bool true :: ofText (rest.drop 3)
    else if c = 'f' ∧ rest.take 4 = ['a', 'l', 's', 'e'] then .bool false :: ofText (rest.drop 4)
    else if c = 'n' ∧ rest.take 3 = ['u', 'l', 'l'] then .null :: ofText (rest.drop 3)
    else [.malformed]
termination_by cs => cs.length
decreasing_by all_goals simp only [List.length_cons, List.length_drop]; omega

end Token

end Onboarding.Json
