namespace Onboarding.Number

/-- A rational number, an infinity, or no number. -/
inductive Extended where
  | nan
  | infinite (negative : Bool)
  | finite (value : Rat)
deriving DecidableEq

namespace Extended

def mul : Extended → Extended → Extended
  -- An infinity times zero is no number.
  | .nan, _ | _, .nan => .nan
  | .infinite s, .infinite t => .infinite (s != t)
  | .infinite s, .finite q | .finite q, .infinite s =>
    if q = 0 then .nan else .infinite (s != decide (q < 0))
  | .finite p, .finite q => .finite (p * q)

def min : Extended → Extended → Extended
  | .nan, y => y
  | x, .nan => x
  | .infinite true, _ | _, .infinite true => .infinite true
  | .infinite false, y => y
  | x, .infinite false => x
  | .finite p, .finite q => .finite (if p ≤ q then p else q)

def power (round : Extended → Extended) (x : Extended) (n : Nat) : Extended :=
  go (.finite 1) x n
where
  /-- The `n`-th power of `square` times `acc`. -/
  go (acc square : Extended) (n : Nat) : Extended :=
    if n = 0 then acc
    else go (if n % 2 = 1 then round (mul acc square) else acc) (round (mul square square)) (n / 2)

def toNat (limit : Nat) : Extended → Nat
  -- Zero for negative values and for no number.
  | .nan => 0
  | .infinite negative => if negative then 0 else limit
  | .finite q => Min.min q.floor.toNat limit

end Extended

end Onboarding.Number
