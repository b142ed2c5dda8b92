import Onboarding.Pattern.Bracket

namespace Onboarding.Pattern

open Text

inductive Flaw where
  | malformed
  | wordEdge
deriving DecidableEq

structure Part where
  depth : Nat
  isRepeatable : Bool := true

/-- The parts of a group up to a place: the depths of its alternatives in front of the last stroke,
and the parts since then, the last one first. `mode` comes back into force after the group. -/
structure Row where
  mode : Mode
  alternatives : List Nat := []
  parts : List Part := []

namespace Row

def adding (r : Row) (part : Part) : Row := { r with parts := part :: r.parts }

def turned (r : Row) : Row :=
  { r with alternatives := nested (r.parts.map Part.depth) :: r.alternatives, parts := [] }

def depth (r : Row) : Nat := nested (nested (r.parts.map Part.depth) :: r.alternatives)

end Row

structure Reading where
  mode : Mode := {}
  row : Row := { mode := {} }
  outer : List Row := []
  names : List (List Char) := []
  hasWordEdge : Bool := false

namespace Reading

def adding (r : Reading) (part : Part) : Reading := { r with row := r.row.adding part }

def entering (r : Reading) (mode : Mode) : Reading :=
  { r with mode, row := { mode := r.mode }, outer := r.row :: r.outer }

def leaving? (r : Reading) : Option Reading :=
  match r.outer with
  | [] => none
  | row :: outer =>
    some { r with mode := r.row.mode, row := row.adding { depth := 1 + r.row.depth }, outer }

def addingAtom? (r : Reading) (a : Atom) : Option Reading :=
  if a.isSupported r.mode then
    some { r.adding { depth := 0 } with
      hasWordEdge := r.hasWordEdge || (r.mode.isUnicode && a == .wordEdge) }
  else none

def repeating? (r : Reading) : Option Reading :=
  match r.row.parts with
  | [] => none
  | part :: parts =>
    if part.isRepeatable then
      some { r with row := { r.row with parts := { depth := 1 + part.depth } :: parts } }
    else none

def flags? (mode : Mode) (seen : List Char) : List Char → Option (Mode × List Char × List Char)
  -- Here `seen` are the flags in front. No flag and no minus sign stands twice, and a minus sign
  -- stands in front of a flag.
  | [] => none
  | c :: rest =>
    if c = ':' ∨ c = ')' then
      if seen.head? = some '-' then none else some (mode, seen, c :: rest)
    else if seen.contains c then none
    else if c = '-' then flags? mode (c :: seen) rest
    else if Mode.flags.contains c then
      flags? (mode.switch (!seen.contains '-') c) (c :: seen) rest
    else none

def isGroupName : List Char → Bool
  | [] => false
  | c :: cs =>
    (c == '_' || isLetter c) && cs.all fun c => "_.[]".toList.contains c || isLetterOrNumber c

def naming? (r : Reading) (cs : List Char) : Option (Reading × List Char) :=
  match cs.span (· ≠ '>') with
  | (name, _ :: rest) =>
    if isGroupName name && !r.names.contains name then
      some ({ r.entering r.mode with names := name :: r.names }, rest)
    else none
  | (_, []) => none

def grouping? (r : Reading) (cs : List Char) : Option (Reading × List Char) :=
  -- Flags alone are no group: they change the mode for what follows. What comes before or after a
  -- match cannot be looked at.
  match r.mode.skip cs with
  | '?' :: 'P' :: '<' :: rest => r.naming? rest
  | '?' :: '<' :: rest => r.naming? rest
  | '?' :: rest =>
    match flags? r.mode [] rest with
    | some (mode, _, ':' :: rest) => some (r.entering mode, rest)
    | some (mode, _ :: _, _ :: rest) =>
      some ({ r.adding { depth := 0, isRepeatable := false } with mode }, rest)
    | _ => none
  | rest => some (r.entering r.mode, rest)

def step? (r : Reading) (c : Char) (rest : List Char) : Option (Reading × List Char) :=
  -- Nothing can be counted.
  match c with
  | '(' => r.grouping? rest
  | ')' => r.leaving?.map (·, rest)
  | '|' => some ({ r with row := r.row.turned }, rest)
  | '[' =>
    (bracketed? r.mode rest).map fun (depth, rest) => (r.adding { depth := depth }, rest)
  | '?' | '*' | '+' =>
    r.repeating?.map (·, match rest with
      | '?' :: rest => rest
      | rest => rest)
  | '{' => none
  | '\\' => (escaped? r.mode rest).bind fun (a, rest) => (r.addingAtom? a).map (·, rest)
  | '.' => (r.addingAtom? .any).map (·, rest)
  | '^' | '$' => (r.addingAtom? .anchor).map (·, rest)
  | c => (r.addingAtom? (.char c false)).map (·, rest)

def run? (fuel : Nat) (r : Reading) (cs : List Char) : Option Reading :=
  -- Each step reads at least one character, of which `fuel` is the number.
  match fuel, r.mode.skip cs with
  | _, [] => some r
  | 0, _ => none
  | fuel + 1, c :: rest => (r.step? c rest).bind fun (r, rest) => run? fuel r rest

end Reading

def maxDepth : Nat := 250

def check (cs : List Char) : Except Flaw Unit :=
  match Reading.run? cs.length {} cs with
  | none => .error .malformed
  | some r =>
    if !r.outer.isEmpty || maxDepth < r.row.depth then .error .malformed
    else if r.hasWordEdge then .error .wordEdge
    else .ok ()

end Onboarding.Pattern
