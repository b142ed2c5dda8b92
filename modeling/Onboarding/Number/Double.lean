import Onboarding.Number.Extended

/-!
Numbers in the 64-bit binary format: a sign, eleven bits of exponent and fifty-two of fraction.
Every real number has a nearest one, with ties resolved towards an even fraction.
-/

namespace Onboarding.Number

structure Double where
  negative : Bool
  exponent : Fin 2048
  fraction : Fin 4503599627370496
deriving DecidableEq

namespace Double

def zero (negative : Bool) : Double := ⟨negative, 0, 0⟩

def infinity (negative : Bool) : Double := ⟨negative, 2047, 0⟩

def nan : Double := ⟨false, 2047, 2251799813685248⟩

def isNan (x : Double) : Bool := x.exponent == 2047 && x.fraction != 0

def isInfinite (x : Double) : Bool := x.exponent == 2047 && x.fraction == 0

def isFinite (x : Double) : Bool := x.exponent != 2047

def isZero (x : Double) : Bool := x.exponent == 0 && x.fraction == 0

def significand (x : Double) : Nat :=
  if x.exponent = 0 then x.fraction.val else 4503599627370496 + x.fraction.val

def scale (x : Double) : Int :=
  if x.exponent = 0 then -1074 else (x.exponent.val : Int) - 1075

def magnitude (x : Double) : Rat := (x.significand : Rat) * (2 : Rat) ^ x.scale

def toExtended (x : Double) : Extended :=
  if x.isNan then .nan
  else if x.isInfinite then .infinite x.negative
  else .finite (if x.negative then -x.magnitude else x.magnitude)

def nearestEven (q : Rat) : Nat :=
  let below := q.floor.toNat
  let rest := q - below
  if rest < 1 / 2 then below
  else if 1 / 2 < rest then below + 1
  else if below % 2 = 0 then below else below + 1

def ofScaled (negative : Bool) (m : Nat) (e : Int) : Double :=
  if m < 4503599627370496 then ⟨negative, 0, Fin.ofNat _ m⟩
  else
    let field := (e + 1075).toNat
    if field < 2047 then ⟨negative, Fin.ofNat _ field, Fin.ofNat _ (m - 4503599627370496)⟩
    else infinity negative

def nearest (negative : Bool) (q : Rat) : Double :=
  if q ≤ 0 then zero negative
  else
    let estimate := (q.num.toNat.log2 : Int) - q.den.log2 - 52
    let tight := if q < (2 : Rat) ^ (estimate + 52) then estimate - 1 else estimate
    let e := max tight (-1074)
    let m := nearestEven (q / (2 : Rat) ^ e)
    if m = 9007199254740992 then ofScaled negative 4503599627370496 (e + 1)
    else ofScaled negative m e

def ofExtended : Extended → Double
  | .nan => nan
  | .infinite negative => infinity negative
  | .finite q => if q < 0 then nearest true (-q) else nearest false q

def rounded (x : Extended) : Extended := (ofExtended x).toExtended

def same (x y : Double) : Bool :=
  -- Zeros of both signs are the same, and no number is not even the same as itself.
  !x.isNan && (x == y || (x.isZero && y.isZero))

end Double

end Onboarding.Number
