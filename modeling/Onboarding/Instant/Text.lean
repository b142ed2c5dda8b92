import Onboarding.Instant.Calendar
import Onboarding.Number.Whole
import Onboarding.Text.Blank

namespace Onboarding

open Number Text

namespace DateTime

def padded (width n : Nat) : List Char :=
  let ds := digits n
  List.replicate (width - ds.length) '0' ++ ds

def yearText (year : Int) : List Char :=
  if 0 ≤ year ∧ year ≤ 9999 then padded 4 year.toNat
  else (if year < 0 then '-' else '+') :: padded 4 year.natAbs

def fractionText (nanosecond : Nat) : List Char :=
  -- Three, six or nine digits, the fewest that lose nothing.
  if nanosecond = 0 then []
  else if nanosecond % 1000000 = 0 then '.' :: padded 3 (nanosecond / 1000000)
  else if nanosecond % 1000 = 0 then '.' :: padded 6 (nanosecond / 1000)
  else '.' :: padded 9 nanosecond

def text (between after : List Char) (d : DateTime) : List Char :=
  yearText d.date.year ++ '-' :: padded 2 d.date.month ++ '-' :: padded 2 d.date.day ++ between ++
    padded 2 d.hour ++ ':' :: padded 2 d.minute ++ ':' :: padded 2 d.second ++
    fractionText d.nanosecond ++ after

end DateTime

namespace Instant

def text (t : Instant) : String :=
  -- For machines: `2025-03-01T09:00:00Z`.
  String.ofList ((DateTime.ofInstant t).text ['T'] ['Z'])

def logText (t : Instant) : String :=
  -- For people: `2025-03-01 09:00:00 UTC`.
  String.ofList ((DateTime.ofInstant t).text [' '] [' ', 'U', 'T', 'C'])

def readField (width : Nat) (cs : List Char) : Option (Nat × List Char) :=
  let cs := trimStart cs
  let ds := (cs.take width).takeWhile Char.isDigit
  if ds.isEmpty then none else some (ofDigits ds, cs.drop ds.length)

def readYear (cs : List Char) : Option (Int × List Char) :=
  -- Up to four digits, or any number of them after a sign.
  match trimStart cs with
  | '-' :: r => if (r.head?.any Char.isDigit) then
      (readField r.length r).map fun (n, rest) => (-(n : Int), rest) else none
  | '+' :: r => if (r.head?.any Char.isDigit) then
      (readField r.length r).map fun (n, rest) => ((n : Int), rest) else none
  | r => (readField 4 r).map fun (n, rest) => ((n : Int), rest)

def readMark (mark : Char) (cs : List Char) : Option (List Char) :=
  match trimStart cs with
  | c :: r => if c = mark then some r else none
  | [] => none

def readFraction (cs : List Char) : Option (Nat × List Char) :=
  match cs with
  | '.' :: r =>
    let ds := r.takeWhile Char.isDigit
    if ds.isEmpty then none
    else
      let kept := ds.take 9
      some (ofDigits kept * Nat.pow 10 (9 - kept.length), r.drop ds.length)
  | _ => some (0, cs)

def readOffset (cs : List Char) : Option (Int × List Char) :=
  -- A letter Z, the letters UTC, or a sign, two digits of hours and two of minutes.
  match cs with
  | [] => none
  | c :: r =>
    if (cs.take 3).map Char.toLower = ['u', 't', 'c'] then some (0, cs.drop 3)
    else if c = 'Z' ∨ c = 'z' then some (0, r)
    else if c = '+' ∨ c = '-' ∨ c = '−' then
      let hours := (r.take 2).takeWhile Char.isDigit
      let r := (r.drop 2).dropWhile fun c => c == ':' || isBlank c
      let minutes := (r.take 2).takeWhile Char.isDigit
      if hours.length = 2 ∧ minutes.length = 2 ∧ ofDigits minutes < 60 ∧ ofDigits hours < 24 then
        let seconds : Int := ofDigits hours * 3600 + ofDigits minutes * 60
        some (if c = '+' then seconds else -seconds, r.drop 2)
      else none
    else none

def ofText? (s : String) : Option Instant := do
  let (year, r) ← readYear s.toList
  let r ← readMark '-' r
  let (month, r) ← readField 2 r
  let r ← readMark '-' r
  let (day, r) ← readField 2 r
  let r ← match r with
    | c :: r => if c = 'T' ∨ c = 't' ∨ c = ' ' then some r else none
    | [] => none
  let (hour, r) ← readField 2 r
  let r ← readMark ':' r
  let (minute, r) ← readField 2 r
  let r ← readMark ':' r
  let (second, r) ← readField 2 r
  let (nanosecond, r) ← readFraction r
  let (offset, r) ← readOffset (trimStart r)
  if (trimStart r).isEmpty then
    DateTime.toInstant? ⟨⟨year, month, day⟩, hour, minute, second, nanosecond⟩ offset
  else none

end Instant

end Onboarding
