import Onboarding.Text.Blank
import Onboarding.Text.Letter

/-!
Regular expressions, as far as it takes to tell which of them can be matched with: the parts that
they are made of, and the modes in which parts are understood. There are no tables of the scripts
of the world to match with, and a match never ends within a character: parts that would need the
one or could do the other are not supported.
-/

namespace Onboarding.Pattern

open Text

structure Mode where
  -- Whether letters stand for both of their cases, whether classes reach beyond ASCII, and whether
  -- white space and comments between parts do not count.
  foldsCase : Bool := false
  isUnicode : Bool := true
  isSpaced : Bool := false
deriving DecidableEq

namespace Mode

def flags : List Char := ['i', 'm', 's', 'U', 'u', 'R', 'x']

def switch (m : Mode) (on : Bool) : Char → Mode
  | 'i' => { m with foldsCase := on }
  | 'u' => { m with isUnicode := on }
  | 'x' => { m with isSpaced := on }
  | _ => m

def skipFrom (inComment : Bool) : List Char → List Char
  -- A comment goes from a hash mark to the end of the line.
  | [] => []
  | c :: cs =>
    if inComment then skipFrom (c ≠ '\n') cs
    else if c = '#' then skipFrom true cs
    else if isBlank c then skipFrom false cs
    else c :: cs

def skip (m : Mode) (cs : List Char) : List Char := if m.isSpaced then skipFrom false cs else cs

end Mode

inductive Atom where
  | char (c : Char) (isByte : Bool)
  | any
  | shorthand (negated : Bool)
  | anchor
  | wordEdge
deriving DecidableEq

namespace Atom

def isSupported (m : Mode) : Atom → Bool
  | .char c isByte => if m.isUnicode then !m.foldsCase else !isByte || c.toNat < 128
  | .any => m.isUnicode
  | .shorthand negated => !m.isUnicode && !negated
  | .anchor | .wordEdge => true

def isMember (m : Mode) : Atom → Bool
  | .char c _ => if m.isUnicode then !m.foldsCase else c.toNat < 128
  | .shorthand negated => !m.isUnicode && !negated
  | .any | .anchor | .wordEdge => false

end Atom

def hexValue? (c : Char) : Option Nat :=
  if c.isDigit then some (c.toNat - 48)
  else if 'a' ≤ c ∧ c ≤ 'f' then some (c.toNat - 87)
  else if 'A' ≤ c ∧ c ≤ 'F' then some (c.toNat - 55)
  else none

def numbered? (m : Mode) : Nat → Nat → List Char → Option (Char × List Char)
  | 0, n, cs => if n.isValidChar then some (Char.ofNat n, m.skip cs) else none
  | count + 1, n, cs =>
    match m.skip cs with
    | [] => none
    | c :: rest => (hexValue? c).bind fun d => numbered? m count (n * 16 + d) rest

def escaped? (m : Mode) : List Char → Option (Atom × List Char)
  -- Signs stand for themselves, but digits and letters stand for nothing unless a meaning is given
  -- to them here.
  | [] => none
  | c :: rest =>
    match c with
    | 'x' => (numbered? m 2 0 rest).map fun (c, rest) => (.char c true, rest)
    | 'u' => (numbered? m 4 0 rest).map fun (c, rest) => (.char c false, rest)
    | 'U' => (numbered? m 8 0 rest).map fun (c, rest) => (.char c false, rest)
    | 'd' | 's' | 'w' => some (.shorthand false, rest)
    | 'D' | 'S' | 'W' => some (.shorthand true, rest)
    | 'A' | 'z' => some (.anchor, rest)
    | 'b' | 'B' | '<' | '>' => some (.wordEdge, rest)
    | 'a' => some (.char '\x07' false, rest)
    | 'f' => some (.char '\x0c' false, rest)
    | 't' => some (.char '\t' false, rest)
    | 'n' => some (.char '\n' false, rest)
    | 'r' => some (.char '\r' false, rest)
    | 'v' => some (.char '\x0b' false, rest)
    | c => if c.toNat < 128 ∧ ¬c.isAlphanum then some (.char c false, rest) else none

def nested : List Nat → Nat
  -- A single part is not wrapped in another.
  | [] => 0
  | [depth] => depth
  | depths => 1 + depths.foldl max 0

end Onboarding.Pattern
