import Onboarding.Event

namespace Onboarding

/-- A store and the services around it, with the events so far from the first to the last and the
milliseconds spent on waiting. -/
structure Registry (σ κ : Type) where
  store : σ
  collaborators : κ
  events : List Event := []
  waited : Nat := 0

namespace Registry

variable {σ κ : Type}

def note (reg : Registry σ κ) (events : List Event) : Registry σ κ :=
  { reg with events := reg.events ++ events }

end Registry

end Onboarding
