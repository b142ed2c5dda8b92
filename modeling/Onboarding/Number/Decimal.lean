import Onboarding.Number.Double

namespace Onboarding.Number

def digits (n : Nat) : List Char := Nat.toDigits 10 n

def digitValue (c : Char) : Nat := c.toNat - '0'.toNat

def ofDigits (cs : List Char) : Nat := cs.foldl (fun n c => n * 10 + digitValue c) 0

structure Decimal where
  significand : Nat
  exponent : Int
deriving DecidableEq

namespace Decimal

def position (d : Decimal) : Int :=
  -- A zero is allowed to lead: `10 ^ (position - 1) ≤ value < 10 ^ position`.
  (digits d.significand).length + d.exponent

def value (d : Decimal) : Rat := (d.significand : Rat) * (10 : Rat) ^ d.exponent

def toDouble (negative : Bool) (d : Decimal) : Double :=
  -- Beyond these bounds the result is infinite or zero, so that no greater power is computed.
  if d.significand = 0 then .zero negative
  else if 310 < d.position then .infinity negative
  else if d.position < -330 then .zero negative
  else .nearest negative d.value

def strip (fuel : Nat) (d : Decimal) : Decimal :=
  -- Here `fuel` bounds the number of trailing zeros.
  match fuel with
  | 0 => d
  | fuel + 1 =>
    if d.significand ≠ 0 ∧ d.significand % 10 = 0 then
      strip fuel ⟨d.significand / 10, d.exponent + 1⟩
    else d

def positional (d : Decimal) : List Char :=
  let ds := digits d.significand
  if 0 ≤ d.exponent then ds ++ List.replicate d.exponent.toNat '0'
  else if 0 < d.position then
    ds.take d.position.toNat ++ '.' :: ds.drop d.position.toNat
  else ['0', '.'] ++ List.replicate (-d.position).toNat '0' ++ ds

end Decimal

inductive Tie where
  | even
  | up
deriving DecidableEq

namespace Double

def decimalPosition (q : Rat) : Int :=
  if 1 ≤ q then (digits q.floor.toNat).length
  else
    let p := 1 - ((digits (1 / q).floor.toNat).length : Int)
    if q < (10 : Rat) ^ p then p else p + 1

def bounds (x : Double) : Rat × Rat :=
  -- The ends are included where the significand is even.
  let half := (2 : Rat) ^ (x.scale - 1)
  let below := if x.fraction.val = 0 ∧ 1 < x.exponent.val then half / 2 else half
  (x.magnitude - below, x.magnitude + half)

def reads (x : Double) (q : Rat) : Bool :=
  let (low, high) := x.bounds
  if x.significand % 2 = 0 then low ≤ q && q ≤ high else low < q && q < high

def decimalOfLength? (tie : Tie) (x : Double) (n : Nat) : Option Decimal :=
  let e := decimalPosition x.magnitude - n
  let unit := (10 : Rat) ^ e
  let f := (x.magnitude / unit).floor.toNat
  let low : Decimal := ⟨f, e⟩
  let high : Decimal := ⟨f + 1, e⟩
  match x.reads low.value, x.reads high.value with
  | true, true =>
    let below := x.magnitude - low.value
    let above := high.value - x.magnitude
    if below < above ∨ (below = above ∧ tie = .even ∧ f % 2 = 0) then some low else some high
  | true, false => some low
  | false, true => some high
  | false, false => none

/-- The shortest numeral that reads back as the magnitude of `x`, and the nearest of those.
Seventeen digits always suffice. -/
def shortest (tie : Tie) (x : Double) : Decimal :=
  if x.isZero then ⟨0, 0⟩
  else (((List.range 17).findSome? fun n => x.decimalOfLength? tie (n + 1)).getD ⟨0, 0⟩).strip 17

def text (x : Double) : String :=
  -- Of two numerals that are as near, the greater one.
  if x.isNan then "NaN"
  else
    let body := if x.isInfinite then "inf".toList else (x.shortest .up).positional
    String.ofList (if x.negative then '-' :: body else body)

def ofUnsigned? (negative : Bool) (cs : List Char) : Option Double :=
  -- Digits with an optional point among them, at least one digit, and an optional exponent; or one
  -- of the words for the special values.
  let folded := cs.map Char.toLower
  if folded = "inf".toList ∨ folded = "infinity".toList then some (infinity negative)
  else if folded = "nan".toList then some nan
  else
    let whole := cs.takeWhile Char.isDigit
    let (fraction, rest) :=
      match cs.dropWhile Char.isDigit with
      | '.' :: r => (r.takeWhile Char.isDigit, r.dropWhile Char.isDigit)
      | r => ([], r)
    if whole.isEmpty && fraction.isEmpty then none
    else
      let power? : Option Int :=
        match rest with
        | [] => some 0
        | e :: r =>
          if e ≠ 'e' ∧ e ≠ 'E' then none
          else
            let (minus, ds) :=
              match r with
              | '-' :: ds => (true, ds)
              | '+' :: ds => (false, ds)
              | ds => (false, ds)
            if ds.isEmpty || !ds.all Char.isDigit then none
            else some (if minus then -(ofDigits ds : Int) else ofDigits ds)
      power?.map fun power =>
        Decimal.toDouble negative ⟨ofDigits (whole ++ fraction), power - fraction.length⟩

def ofText? (s : String) : Option Double :=
  match s.toList with
  | '-' :: cs => ofUnsigned? true cs
  | '+' :: cs => ofUnsigned? false cs
  | cs => ofUnsigned? false cs

end Double

end Onboarding.Number
