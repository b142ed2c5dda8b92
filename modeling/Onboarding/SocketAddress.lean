import Onboarding.Settings
import Onboarding.Text.Split

namespace Onboarding

open Number

inductive Address where
  | v4 (a b c d : UInt8)
  | v6 (groups : List UInt16)
deriving DecidableEq

namespace Address

def loopback : Address := .v4 127 0 0 1

def byte? (cs : List Char) : Option UInt8 :=
  if cs.isEmpty || 3 < cs.length || !cs.all Char.isDigit then none
  else if cs.head? = some '0' && cs.length ≠ 1 then none
  else if ofDigits cs ≤ 255 then some (ofDigits cs).toUInt8
  else none

def bytes? (cs : List Char) : Option (UInt8 × UInt8 × UInt8 × UInt8) :=
  match (Text.split '.' cs).map byte? with
  | [some a, some b, some c, some d] => some (a, b, c, d)
  | _ => none

def group? (cs : List Char) : Option UInt16 :=
  -- One to four hexadecimal digits.
  if cs.isEmpty || 4 < cs.length then none
  else
    (cs.foldl (fun (n : Option Nat) c => do
      let n ← n
      if c.isDigit then return n * 16 + digitValue c
      else if 'a' ≤ c.toLower ∧ c.toLower ≤ 'f' then return n * 16 + (c.toLower.toNat - 87)
      else failure) (some 0)).map Nat.toUInt16

def pair (high low : UInt8) : UInt16 := (high.toNat * 256 + low.toNat).toUInt16

def groups? (mayEndInBytes : Bool) : List (List Char) → Option (List UInt16)
  | [] => some []
  | [part] =>
    match bytes? part with
    | some (a, b, c, d) => if mayEndInBytes then some [pair a b, pair c d] else none
    | none => (group? part).map ([·])
  | part :: parts => do
    let g ← group? part
    let gs ← groups? mayEndInBytes parts
    return g :: gs

def splitAtGap : List Char → Option (List Char × List Char)
  | ':' :: ':' :: rest => some ([], rest)
  | c :: rest => (splitAtGap rest).map fun (front, back) => (c :: front, back)
  | [] => none

def someGroups? (mayEndInBytes : Bool) (cs : List Char) : Option (List UInt16) :=
  if cs.isEmpty then some [] else groups? mayEndInBytes (Text.split ':' cs)

def sixteen? (cs : List Char) : Option (List UInt16) :=
  -- A gap stands for at least one group of zero.
  match splitAtGap cs with
  | none => (someGroups? true cs).filter (·.length = 8)
  | some (front, back) => do
    let front ← someGroups? false front
    let back ← someGroups? true back
    if front.length + back.length ≤ 7 then
      return front ++ List.replicate (8 - front.length - back.length) 0 ++ back
    else failure

def ofText? (s : String) : Option Address :=
  match bytes? s.toList with
  | some (a, b, c, d) => some (.v4 a b c d)
  | none => (sixteen? s.toList).map .v6

def bytesText (a b c d : Nat) : String := s!"{a}.{b}.{c}.{d}"

def groupsText (groups : List UInt16) : String :=
  ":".intercalate (groups.map fun g => String.ofList (Nat.toDigits 16 g.toNat))

def longestRun (groups : List UInt16) : Nat × Nat :=
  ((List.range groups.length).map fun i =>
    (i, ((groups.drop i).takeWhile (· = 0)).length)).foldl
      (fun best run => if best.2 < run.2 then run else best) (0, 0)

def text : Address → String
  -- The last groups are written as bytes where they stand for an address of four bytes.
  | .v4 a b c d => bytesText a.toNat b.toNat c.toNat d.toNat
  | .v6 groups =>
    match groups with
    | [0, 0, 0, 0, 0, 0xffff, g, h] =>
      "::ffff:" ++ bytesText (g.toNat / 256) (g.toNat % 256) (h.toNat / 256) (h.toNat % 256)
    | _ =>
      let (start, length) := longestRun groups
      if 1 < length then
        groupsText (groups.take start) ++ "::" ++ groupsText (groups.drop (start + length))
      else groupsText groups

end Address

structure SocketAddress where
  address : Address
  port : Nat
deriving DecidableEq

namespace SocketAddress

def text (a : SocketAddress) : String :=
  match a.address with
  | .v4 .. => a.address.text ++ ":" ++ toString a.port
  | .v6 _ => "[" ++ a.address.text ++ "]:" ++ toString a.port

def ofHost (host : String) (port : Nat) : Except SettingsError SocketAddress :=
  if Text.sameFolded host "localhost" then .ok ⟨.loopback, port⟩
  else
    match Address.ofText? host with
    | some address => .ok ⟨address, port⟩
    | none => .error .invalidHost

end SocketAddress

end Onboarding
