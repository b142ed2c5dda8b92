namespace Onboarding.CommandLine

inductive Effect (α : Type) where
  -- An option is refused where its effect gives none: a value cannot be read, or the option has
  -- been given before.
  | flag (apply : α → Option α)
  | value (apply : String → α → Option α)

structure OptionSpec (α : Type) where
  name : String
  effect : Effect α

inductive Interruption where
  | help
  | wrong (argument : String)

def once {β : Type} (old : Option β) (new : Option β) : Option (Option β) :=
  match old with
  | none => new.map some
  | some _ => none

def isPlain (argument : String) : Bool :=
  -- A single dash is plain.
  argument = "-" || argument.toList.head? ≠ some '-'

def longOption? (argument : String) : Option (String × Option String) :=
  -- A name, and a value if there is an equals sign.
  match argument.toList with
  | '-' :: '-' :: cs =>
    let name := String.ofList (cs.takeWhile (· ≠ '='))
    match cs.dropWhile (· ≠ '=') with
    | [] => some (name, none)
    | _ :: value => some (name, some (String.ofList value))
  | _ => none

def asksForHelp (argument : String) : Bool :=
  argument = "--help" || argument.toList.take 2 = ['-', 'h']

structure Pending (α : Type) where
  argument : String
  apply : String → α → Option α

def readOption {α : Type} (specs : List (OptionSpec α)) (a : α) (argument : String) :
    Except Interruption (α × Option (Pending α)) :=
  -- Either what has been read changes, or an option waits for its value.
  if asksForHelp argument then .error .help
  else
    let applied (a? : Option α) : Except Interruption (α × Option (Pending α)) :=
      match a? with
      | some a => .ok (a, none)
      | none => .error (.wrong argument)
    match longOption? argument with
    | none => .error (.wrong argument)
    | some (name, value?) =>
      match (specs.find? (·.name = name)).map OptionSpec.effect, value? with
      | some (.flag apply), none => applied (apply a)
      | some (.value apply), some value => applied (apply value a)
      | some (.value apply), none => .ok (a, some ⟨argument, apply⟩)
      | _, _ => .error (.wrong argument)

def readOptions {α : Type} (specs : List (OptionSpec α)) (a : α) (pending : Option (Pending α)) :
    List String → Except Interruption α
  -- Two dashes may end the options.
  | [] =>
    match pending with
    | none => .ok a
    | some p => .error (.wrong p.argument)
  | argument :: rest =>
    match pending with
    | some p =>
      match if isPlain argument then p.apply argument a else none with
      | some a => readOptions specs a none rest
      | none => .error (.wrong p.argument)
    | none =>
      if argument = "--" then
        match rest with
        | [] => .ok a
        | extra :: _ => .error (.wrong extra)
      else
        match readOption specs a argument with
        | .ok (a, pending) => readOptions specs a pending rest
        | .error e => .error e

end Onboarding.CommandLine
