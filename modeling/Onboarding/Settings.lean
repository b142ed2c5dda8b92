import Onboarding.Number.Decimal
import Onboarding.Text.Blank
import Onboarding.Text.Folding
import Onboarding.Tuning

namespace Onboarding

open Number

abbrev Environment := String → Option String

inductive Stage where
  | development
  | test
  | production
deriving DecidableEq

namespace Stage

def name : Stage → String
  | .development => "Development"
  | .test => "Test"
  | .production => "Production"

def ofText (s : String) : Stage :=
  -- Development stands for all other texts.
  let folded := Text.foldCase (Text.trim s.toList)
  if folded = "prod".toList ∨ folded = "production".toList then .production
  else if folded = "test".toList ∨ folded = "ci".toList then .test
  else .development

end Stage

inductive SettingsError where
  | invalidPort
  | invalidHost
  | invalidValue (key value : String)
deriving DecidableEq

def SettingsError.message : SettingsError → String
  | .invalidPort => "APP_PORT must be a valid u16"
  | .invalidHost => "APP_HOST must parse to an IPv4 or IPv6 address"
  | .invalidValue key value => key ++ " has an invalid value '" ++ value ++ "'"

namespace Environment

def value {α : Type} (env : Environment) (key : String) (default : α) (read : String → Option α) :
    Except SettingsError α :=
  match env key with
  | none => .ok default
  | some raw =>
    match read (Text.trimmed raw) with
    | some a => .ok a
    | none => .error (.invalidValue key raw)

def natural (env : Environment) (key : String) (limit default : Nat) : Except SettingsError Nat :=
  env.value key default (whole? limit)

def positive (env : Environment) (key : String) (limit default : Nat) :
    Except SettingsError Nat := do
  let n ← env.natural key limit default
  if 0 < n then return n else throw (.invalidValue key (toString n))

end Environment

namespace Backoff

def isGrowing (multiplier : Double) : Bool :=
  multiplier.isFinite && !multiplier.negative && decide (1 ≤ multiplier.magnitude)

def load (env : Environment) : Except SettingsError Backoff := do
  let multiplier ← env.value "REGISTRY_BACKOFF_MULTIPLIER" ({} : Backoff).multiplier Double.ofText?
  if isGrowing multiplier then
    let base ← env.natural "REGISTRY_BACKOFF_BASE_MS" max64 1000
    let cap ← env.natural "REGISTRY_BACKOFF_CAP_MS" max64 300000
    if base ≤ cap ∧ cap ≤ Duration.day.millis then
      return { base := .ofMillis base, multiplier, cap := .ofMillis cap }
    else throw (.invalidValue "REGISTRY_BACKOFF_CAP_MS" (toString cap))
  else throw (.invalidValue "REGISTRY_BACKOFF_MULTIPLIER" multiplier.text)

end Backoff

def Tuning.load (env : Environment) : Except SettingsError Tuning := do
  let batchSize ← env.positive "REGISTRY_BATCH_SIZE" max64 50
  let workers ← env.positive "REGISTRY_WORKERS" max64 1
  let identity ← env.positive "REGISTRY_IDENTITY_MAX_ATTEMPTS" max32 5
  let credentials ← env.positive "REGISTRY_CREDENTIALS_MAX_ATTEMPTS" max32 5
  let policy ← env.positive "REGISTRY_POLICY_MAX_ATTEMPTS" max32 5
  let backoff ← Backoff.load env
  let stallThreshold ← env.natural "REGISTRY_STALL_THRESHOLD_SECS" max64 900
  let pollInterval ← env.positive "REGISTRY_POLL_INTERVAL_MS" max64 5000
  let callTimeout ← env.positive "REGISTRY_CALL_TIMEOUT_MS" max64 10000
  return {
    pollInterval := .ofMillis pollInterval
    batchSize
    workers
    budgets := { identity, credentials, policy }
    backoff
    callTimeout := .ofMillis callTimeout
    stallThreshold := .ofSeconds stallThreshold }

structure Settings where
  stage : Stage := .development
  host : String := "127.0.0.1"
  port : Nat := 3000
  logFilter : String := "info"
  tuning : Tuning := {}

def portOfText? (s : String) : Option Nat :=
  -- Digits without white space around them.
  whole? max16 s

def Settings.variables : List String := [
  "APP_ENV", "APP_HOST", "APP_PORT", "APP_LOG_LEVEL", "REGISTRY_BATCH_SIZE", "REGISTRY_WORKERS",
  "REGISTRY_IDENTITY_MAX_ATTEMPTS", "REGISTRY_CREDENTIALS_MAX_ATTEMPTS",
  "REGISTRY_POLICY_MAX_ATTEMPTS", "REGISTRY_BACKOFF_MULTIPLIER", "REGISTRY_BACKOFF_BASE_MS",
  "REGISTRY_BACKOFF_CAP_MS", "REGISTRY_STALL_THRESHOLD_SECS", "REGISTRY_POLL_INTERVAL_MS",
  "REGISTRY_CALL_TIMEOUT_MS"]

def Settings.load (env : Environment) : Except SettingsError Settings := do
  let some port := portOfText? ((env "APP_PORT").getD "3000") | throw .invalidPort
  let tuning ← Tuning.load env
  return {
    stage := .ofText ((env "APP_ENV").getD "development")
    host := (env "APP_HOST").getD "127.0.0.1"
    port
    logFilter := (env "APP_LOG_LEVEL").getD "info"
    tuning }

end Onboarding
