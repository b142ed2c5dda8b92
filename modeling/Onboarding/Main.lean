import Onboarding.CommandLine.Run
import Std.Time.DateTime.Timestamp

namespace Onboarding

def currentEnvironment : IO Environment := do
  let pairs ← (Settings.variables ++ [LogFilter.variableName]).mapM fun name => do
    return (name, ← IO.getEnv name)
  return fun name => (Json.lookup name pairs).join

def hexText (b : UInt8) : String :=
  String.ofList [Json.hexDigit (b.toNat / 16), Json.hexDigit (b.toNat % 16)]

def freshIds : IO (Nat → ParticipantId) := do
  let bytes ← IO.getRandomBytes 16
  let base := String.join (bytes.toList.map hexText)
  return fun n => ⟨base ++ "-" ++ toString n⟩

def risingClock : IO (Nat → Instant) := do
  let now ← Std.Time.Timestamp.now
  let start := (Instant.epoch.shift? now.toNanosecondsSinceUnixEpoch.val).getD .epoch
  return fun n => start.after ⟨n⟩

end Onboarding

open Onboarding

def main (arguments : List String) : IO UInt32 := do
  let env ← currentEnvironment
  match CommandLine.run arguments env (← freshIds) (← risingClock) with
  | .inl exit =>
    IO.print exit.output
    IO.eprint exit.errors
    return exit.code.toUInt32
  | .inr (_, address) =>
    let error : ProgramError := .io ("no network to serve on at " ++ address.text)
    IO.eprintln ("application error: " ++ error.message)
    return 1
