import Onboarding.Pattern.Basic

namespace Onboarding.Pattern

open Text

def classNames : List String :=
  ["alnum", "alpha", "ascii", "blank", "cntrl", "digit", "graph", "lower", "print", "punct",
    "space", "upper", "word", "xdigit"]

def named? : List Char → Option (Bool × List Char)
  | ':' :: cs =>
    let (negated, cs) :=
      match cs with
      | '^' :: cs => (true, cs)
      | cs => (false, cs)
    match cs.span (· ≠ ':') with
    | (name, ':' :: ']' :: rest) =>
      if classNames.contains (String.ofList name) then some (negated, rest) else none
    | _ => none
  | _ => none

def member? (m : Mode) : List Char → Option (Atom × List Char)
  | '\\' :: rest => escaped? m rest
  | c :: rest => some (.char c false, rest)
  | [] => none

def afterHyphen? (m : Mode) (cs : List Char) : Option Char :=
  -- A hash mark is passed over like white space.
  if m.isSpaced then
    match cs.dropWhile isBlank with
    | '#' :: rest => (rest.dropWhile isBlank).head?
    | rest => rest.head?
  else cs.head?

def range? (m : Mode) (cs : List Char) : Option (List Char) := do
  -- A hyphen makes a range unless it is the last character of the class or the first of two
  -- hyphens.
  let (first, rest) ← member? m cs
  match m.skip rest with
  | [] => none
  | c :: after =>
    if c = '-' ∧ afterHyphen? m after ≠ some ']' ∧ afterHyphen? m after ≠ some '-' then
      let (last, rest) ← member? m (m.skip after)
      match first, last with
      | .char a _, .char b _ =>
        if a ≤ b ∧ first.isMember m ∧ last.isMember m then some rest else none
      | _, _ => none
    else if first.isMember m then some (c :: after)
    else none

structure OpenClass where
  -- The depths of the members since the last operator, and the depth of what stands in front of
  -- that operator.
  members : List Nat := []
  left : Option Nat := none

namespace OpenClass

def adding (o : OpenClass) (depth : Nat) : OpenClass := { o with members := depth :: o.members }

def depth (o : OpenClass) : Nat :=
  match o.left with
  | none => nested o.members
  | some left => 1 + max left (nested o.members)

end OpenClass

def hyphens (m : Mode) (fuel : Nat) (o : OpenClass) (cs : List Char) : OpenClass × List Char :=
  match fuel, cs with
  | fuel + 1, '-' :: rest => hyphens m fuel (o.adding 0) (m.skip rest)
  | _, cs => (o, cs)

def opening? (m : Mode) (cs : List Char) : Option (OpenClass × List Char) :=
  -- A closing bracket in first place stands for itself. The complement of a class is not supported
  -- where it would have bytes for members.
  let start (cs : List Char) : Option (OpenClass × List Char) :=
    let (o, rest) := hyphens m cs.length {} cs
    let (o, rest) :=
      match o.members, rest with
      | [], ']' :: rest => (o.adding 0, m.skip rest)
      | _, rest => (o, rest)
    if o.members.isEmpty || (Atom.char '-' false).isMember m then some (o, rest) else none
  match m.skip cs with
  | '^' :: rest => if m.isUnicode then start (m.skip rest) else none
  | rest => start rest

def closing? (m : Mode) (fuel : Nat) (o : OpenClass) (outer : List OpenClass) (cs : List Char) :
    Option (Nat × List Char) :=
  -- Here `outer` are the classes around this one. Each step reads at least one character, of which
  -- `fuel` is the number.
  match fuel with
  | 0 => none
  | fuel + 1 =>
    let operator (rest : List Char) := closing? m fuel { left := some o.depth } outer rest
    match m.skip cs with
    | [] => none
    | '[' :: rest =>
      match named? rest with
      | some (negated, rest) =>
        if if m.isUnicode then !m.foldsCase else !negated then
          closing? m fuel (o.adding 0) outer rest
        else none
      | none => (opening? m rest).bind fun (inner, rest) => closing? m fuel inner (o :: outer) rest
    | ']' :: rest =>
      match outer with
      | [] => some (1 + o.depth, rest)
      | next :: outer => closing? m fuel (next.adding (1 + o.depth)) outer rest
    | '&' :: '&' :: rest => operator rest
    | '-' :: '-' :: rest => operator rest
    | '~' :: '~' :: rest => operator rest
    | cs => (range? m cs).bind fun rest => closing? m fuel (o.adding 0) outer rest

def bracketed? (m : Mode) (cs : List Char) : Option (Nat × List Char) :=
  (opening? m cs).bind fun (o, rest) => closing? m (rest.length + 1) o [] rest

end Onboarding.Pattern
