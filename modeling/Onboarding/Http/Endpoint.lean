namespace Onboarding.Http

inductive Endpoint where
  | participants
  | participant (segment : List Char)
  | lookUp
  | stalled
  | health
  | readiness
  | metrics
deriving DecidableEq

def registryPath : List Char := "/api/v1/registry".toList

def after? (start cs : List Char) : Option (List Char) :=
  if start.isPrefixOf cs then some (cs.drop start.length) else none

def Endpoint.ofPath? (path : List Char) : Option Endpoint :=
  -- The name of a registration is not empty and has no slash.
  if path = "/health".toList then some .health
  else if path = "/ready".toList then some .readiness
  else if path = "/metrics".toList then some .metrics
  else
    match after? registryPath path with
    | none => none
    | some rest =>
      if rest = "/participants".toList then some .participants
      else if rest = "/participant".toList then some .lookUp
      else if rest = "/stalled".toList then some .stalled
      else
        match after? "/participants/".toList rest with
        | none => none
        | some segment => if segment.isEmpty || segment.contains '/' then none
            else some (.participant segment)

/-- Submissions and listings go to the same endpoint. -/
theorem Endpoint.ofPath?_participants :
    ofPath? "/api/v1/registry/participants".toList = some .participants := by
  decide +kernel

end Onboarding.Http
