import Onboarding.CommandLine.Command
import Onboarding.SocketAddress

namespace Onboarding.CommandLine

structure Exit where
  code : Nat
  output : String := ""
  errors : String := ""

namespace Exit

def success (output : String) : Exit := { code := 0, output }

def failure (e : ProgramError) : Exit :=
  { code := 1, errors := "application error: " ++ e.message ++ "\n" }

def misuse (argument : String) : Exit :=
  { code := 2, errors := "error: unexpected argument '" ++ argument ++ "'\n" }

end Exit

def Serving.override (serving : Serving) (settings : Settings) : Settings :=
  -- There is one worker at least.
  { settings with
    host := serving.host.getD settings.host
    port := serving.port.getD settings.port
    tuning := { settings.tuning with
      workers := (serving.workers.map (max 1)).getD settings.tuning.workers } }

def Serving.prepare (serving : Serving) (env : Environment) :
    Except ProgramError (Settings × SocketAddress) := do
  -- The environment is looked at first, then the log filter, and the address last.
  let loaded ← (Settings.load env).mapError .settings
  let settings := serving.override loaded
  let _ ← (LogFilter.resolve env settings.logFilter).mapError fun (filter, flaw) =>
    .logging (.invalidFilter filter flaw)
  let address ← (SocketAddress.ofHost settings.host settings.port).mapError .settings
  return (settings, address)

def run (arguments : List String) (env : Environment) (ids : Nat → ParticipantId)
    (clock : Nat → Instant) : Exit ⊕ (Settings × SocketAddress) :=
  match Command.ofArguments arguments with
  | .error argument => .inl (.misuse argument)
  | .ok (.showText text) => .inl (.success text)
  | .ok (.demonstrate demo) =>
    match demo.run ids clock with
    | .ok report => .inl (.success (report.text demo.asJson))
    | .error e => .inl (.failure e)
  | .ok (.serve serving) =>
    match serving.prepare env with
    | .ok ready => .inr ready
    | .error e => .inl (.failure e)

end Onboarding.CommandLine
