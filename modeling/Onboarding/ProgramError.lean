import Onboarding.LogFilter
import Onboarding.Service

namespace Onboarding

inductive LoggingError where
  | invalidFilter (filter : String) (flaw : LogFilter.Flaw)
  | unavailable (detail : String)
deriving DecidableEq

def LoggingError.message : LoggingError → String
  | .invalidFilter filter _ =>
    "invalid log level/filter '" ++ filter ++ "': unable to build EnvFilter"
  | .unavailable detail => "telemetry error: " ++ detail

inductive ProgramError where
  | settings (error : SettingsError)
  | logging (error : LoggingError)
  | io (detail : String)
  | store (error : StoreError)
  | service (error : ServiceError)
deriving DecidableEq

namespace ProgramError

def cause : ProgramError → String
  | .settings e => e.message
  | .logging e => e.message
  | .io detail => detail
  | .store e => e.message
  | .service e => e.message

def message (e : ProgramError) : String :=
  (match e with
    | .settings _ => "configuration error: "
    | .logging _ => "telemetry error: "
    | .io _ => "io error: "
    | .store _ => "store error: "
    | .service _ => "registration error: ") ++ e.cause

def depth : ProgramError → Nat
  -- Its cause, and what that goes back to.
  | .settings .invalidHost => 2
  | .logging (.invalidFilter _ flaw) => 2 + flaw.depth
  | .logging (.unavailable _) => 2
  | _ => 1

def status : ProgramError → Nat
  | .service (.invalidDid _) => 400
  | .service (.alreadyRegistered ..) => 409
  | .service (.unknownDid _) => 404
  | .store e | .service (.store e) =>
    match e with
    | .notFound _ => 404
    | .unavailable _ => 503
    | .alreadyExists _ | .conflict .. => 500
  | .settings _ | .logging _ | .io _ => 500

def clientText : ProgramError → String
  | .store e => e.message
  | .service e => e.message
  | e => e.message

def body : ProgramError → Json
  | .service (.alreadyRegistered did id state) => .object [
      ("error", .string (ServiceError.alreadyRegistered did id state).message),
      ("participant_id", id.toJson)]
  | e => .object [("error", .string e.clientText)]

end ProgramError

end Onboarding
