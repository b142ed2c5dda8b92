import Onboarding.CommandLine.Run
import Onboarding.Http.Answer
import Onboarding.Json.Reader
import Onboarding.Main
import Onboarding.Proofs.Allowance
import Onboarding.Proofs.Approval
import Onboarding.Proofs.Bodies
import Onboarding.Proofs.Budgets
import Onboarding.Proofs.Calls
import Onboarding.Proofs.Candour
import Onboarding.Proofs.Curve
import Onboarding.Proofs.Cycles
import Onboarding.Proofs.Dates
import Onboarding.Proofs.Deadlines
import Onboarding.Proofs.Demonstration
import Onboarding.Proofs.Edits
import Onboarding.Proofs.Exclusion
import Onboarding.Proofs.Fairness
import Onboarding.Proofs.Growth
import Onboarding.Proofs.Identifiers
import Onboarding.Proofs.Instants
import Onboarding.Proofs.LifeCycle
import Onboarding.Proofs.Listings
import Onboarding.Proofs.Loading
import Onboarding.Proofs.Membership
import Onboarding.Proofs.Numerals
import Onboarding.Proofs.Parts
import Onboarding.Proofs.Persistence
import Onboarding.Proofs.Phases
import Onboarding.Proofs.Precedence
import Onboarding.Proofs.Queries
import Onboarding.Proofs.Reference
import Onboarding.Proofs.Refusals
import Onboarding.Proofs.Registrations
import Onboarding.Proofs.Runs
import Onboarding.Proofs.Settlement
import Onboarding.Proofs.Shape
import Onboarding.Proofs.Submissions
import Onboarding.Proofs.Swaps
import Onboarding.Proofs.Targets
import Onboarding.Proofs.Timestamps
import Onboarding.Proofs.Variables
import Onboarding.Proofs.Visibility
import Onboarding.Proofs.Waits
import Onboarding.Rehearsal.Cast
import Onboarding.Rehearsal.Store
import Onboarding.Store.Lemmas
import Onboarding.Worker
