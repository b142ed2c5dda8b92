import Onboarding.Instant.Duration

/-!
Points in time to the nanosecond, from the year -262143 to the year 262142. A second may be
followed by a leap second, whose nanoseconds are counted from a thousand million on.
-/

namespace Onboarding

abbrev nanosPerSecond : Nat := 1000000000

abbrev firstSecond : Int := -8334601228800

abbrev lastSecond : Int := 8210266876799

/-- A point in time: the seconds since the beginning of 1970, leap seconds not counted, and the
nanoseconds since then, of which there are twice as many where a leap second follows. -/
structure Instant where
  second : Int
  nanosecond : Nat
  nanosecond_lt : nanosecond < 2 * nanosPerSecond
  first_le : firstSecond ≤ second
  le_last : second ≤ lastSecond
deriving DecidableEq

namespace Instant

def position (t : Instant) : Int := t.second * (2 * nanosPerSecond) + t.nanosecond

instance : LE Instant := ⟨fun a b => a.position ≤ b.position⟩

instance : LT Instant := ⟨fun a b => a.position < b.position⟩

instance (a b : Instant) : Decidable (a ≤ b) :=
  inferInstanceAs (Decidable (a.position ≤ b.position))

instance (a b : Instant) : Decidable (a < b) :=
  inferInstanceAs (Decidable (a.position < b.position))

def ofParts? (second : Int) (nanosecond : Nat) : Option Instant :=
  if h : nanosecond < 2 * nanosPerSecond ∧ firstSecond ≤ second ∧ second ≤ lastSecond then
    some ⟨second, nanosecond, h.1, h.2.1, h.2.2⟩
  else none

def last : Instant := ⟨lastSecond, 999999999, by decide, by decide, by decide⟩

def epoch : Instant := ⟨0, 0, by decide, by decide, by decide⟩

def isLeap (t : Instant) : Bool := nanosPerSecond ≤ t.nanosecond

def shift? (t : Instant) (nanos : Int) : Option Instant :=
  -- A move within a leap second stays in it; one that leaves it counts it as the second that
  -- follows or that is followed.
  let whole := nanos.tdiv nanosPerSecond
  let part := nanos.tmod nanosPerSecond
  let moved (second : Int) (nanosecond : Int) : Option Instant :=
    let total := second * nanosPerSecond + nanosecond + nanos
    ofParts? (total / nanosPerSecond) (total % nanosPerSecond).toNat
  if t.isLeap then
    let rest : Int := t.nanosecond - nanosPerSecond
    if 0 < whole ∨ (0 < part ∧ (nanosPerSecond : Int) ≤ rest + part) then moved t.second rest
    else if whole < 0 then moved (t.second + 1) rest
    else ofParts? t.second (t.nanosecond + part).toNat
  else moved t.second t.nanosecond

/-- The instant a length of time later, or `last` where the calendar ends before that. From within
the leap second behind `last`, this is a step back. -/
def after (t : Instant) (d : Duration) : Instant := (t.shift? d.nanoseconds).getD last

def since (t u : Instant) : Int :=
  -- A leap second counts if one of the two lies in it at the earlier time of day.
  let timeOfDay := t.second % 86400
  let timeOfDay' := u.second % 86400
  let leap : Int :=
    if timeOfDay' < timeOfDay then if u.isLeap then 1 else 0
    else if timeOfDay < timeOfDay' then if t.isLeap then -1 else 0
    else 0
  (t.second - u.second + leap) * nanosPerSecond + ((t.nanosecond : Int) - u.nanosecond)

end Instant

end Onboarding
