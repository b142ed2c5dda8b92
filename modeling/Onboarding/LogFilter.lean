import Onboarding.Pattern.Check
import Onboarding.Settings
import Onboarding.Text.Letter
import Onboarding.Text.Split

/-!
Filters that choose which events are logged. A filter is a list of directives between commas, of
which empty ones do not count. A directive is a level, or a target, a span with fields, or both,
and may end in an equals sign and a level: `target[span{field=value}]=level`. A value is a number
or a pattern. What is told here is whether a filter is well formed.
-/

namespace Onboarding.LogFilter

open Number Text

inductive Flaw where
  | malformed
  | level
  | value (flaw : Pattern.Flaw)
deriving DecidableEq

def Flaw.depth : Flaw → Nat
  -- Each error is the reason of the one above. There is no matcher without a pattern, no pattern
  -- without an automaton, and no automaton without a well-formed text.
  | .malformed => 0
  | .level => 1
  | .value .wordEdge => 1
  | .value .malformed => 3

def levelNames : List String := ["error", "warn", "info", "debug", "trace", "off"]

def isLevel (cs : List Char) : Bool :=
  levelNames.any (fun name => foldCase name.toList == foldCase cs) ||
    ((whole? max64 (String.ofList cs)).any (· ≤ 5))

def isTargetStart (c : Char) : Bool := isLetterOrNumber c || c == '-' || c == ':' || c == '_'

def size (cs : List Char) : Nat := cs.foldl (fun n c => n + c.utf8Size) 0

def dropBytes? : Nat → List Char → Option (List Char)
  | 0, cs => some cs
  | _ + 1, [] => none
  | n + 1, c :: cs => if c.utf8Size ≤ n + 1 then dropBytes? (n + 1 - c.utf8Size) cs else none

def takeBytes? : Nat → List Char → Option (List Char)
  | 0, _ => some []
  | _ + 1, [] => none
  | n + 1, c :: cs =>
    if c.utf8Size ≤ n + 1 then (takeBytes? (n + 1 - c.utf8Size) cs).map (c :: ·) else none

structure Directive where
  text : List Char

namespace Directive

def inner (d : Directive) : List Char := trim d.text

def checkLevel (d : Directive) (cs : List Char) : Except Flaw Unit :=
  -- There is no level in a directive with white space around it.
  if d.inner == d.text && (cs.isEmpty || isLevel cs) then .ok () else .error .level

def checkAfterSpan (d : Directive) : List Char → Except Flaw Unit
  | [] => .ok ()
  | '=' :: level => d.checkLevel level
  | _ => .error .malformed

def checkField (cs : List Char) : Except Flaw Unit :=
  -- What stands after another equals sign does not count.
  match split '=' cs with
  | _ :: value :: _ =>
    if (Double.ofText? (String.ofList value)).isSome then .ok ()
    else (Pattern.check value).mapError .value
  | _ => .ok ()

def field? (d : Directive) (start count : Nat) : Option (List Char) :=
  -- The place is that in the directive without white space, but the text is taken from the
  -- directive with it.
  (dropBytes? start d.text).bind (takeBytes? count)

def checkSpan (d : Directive) (cs : List Char) : Except Flaw Unit :=
  match cs.dropWhile fun c => c ≠ ']' && c ≠ '{' with
  | ']' :: rest => d.checkAfterSpan rest
  | _ :: fields =>
    match fields.span (· ≠ '}') with
    | (c :: cs, _ :: rest) =>
      match d.field? (size d.inner - size fields) (size (c :: cs)), rest with
      | some field, ']' :: rest => do
        checkField field
        d.checkAfterSpan rest
      | some field, _ => do
        checkField field
        .error .malformed
      | none, _ => .error .malformed
    | _ => .error .malformed
  | [] => .error .malformed

def check (d : Directive) : Except Flaw Unit :=
  match d.inner with
  | [] => .error .malformed
  | '[' :: rest => d.checkSpan rest
  | c :: rest =>
    if isTargetStart c then
      match rest.dropWhile fun c => c ≠ '=' && c ≠ '[' with
      | [] => .ok ()
      | '[' :: rest => d.checkSpan rest
      | _ :: level => d.checkLevel level
    else .error .malformed

end Directive

def check (s : String) : Except Flaw Unit :=
  -- The first directive that is not well formed decides.
  ((split ',' s.toList).filter (!·.isEmpty)).forM fun part => Directive.check ⟨part⟩

def variableName : String := "RUST_LOG"

/-- The filter to log by: the one in the environment if it is well formed, or else the one from the
settings, which is given back with what is wrong with it if it is not well formed. -/
def resolve (env : Environment) (level : String) : Except (String × Flaw) String :=
  match (env variableName).filter fun filter => (check filter).isOk with
  | some filter => .ok filter
  | none => ((check level).mapError (level, ·)).map fun _ => level

end Onboarding.LogFilter
