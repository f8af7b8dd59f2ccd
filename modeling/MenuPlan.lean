import MenuPlan.Main
import MenuPlan.Samples
import MenuPlan.Proofs.Trail.Ascent
import MenuPlan.Proofs.Trail.Climb
import MenuPlan.Proofs.Trail.Linking
import MenuPlan.Proofs.Json.Scanning
import MenuPlan.Proofs.FileTree
import MenuPlan.Proofs.Json.Numeral
import MenuPlan.Proofs.Json.RoundTrip
import MenuPlan.Proofs.Number.Shortest
import MenuPlan.Proofs.Json.Writing
import MenuPlan.Proofs.PlanFile.Loading
import MenuPlan.Proofs.Trail.Locality
import MenuPlan.Proofs.Plan.Entries
import MenuPlan.Proofs.Item.Mirror
import MenuPlan.Proofs.Item.Acceptance
import MenuPlan.Proofs.Item.Reading
import MenuPlan.Proofs.Plan.Failure
import MenuPlan.Proofs.Item.Remarks
import MenuPlan.Proofs.Plan.Remarks
import MenuPlan.Proofs.Item.Strictness
import MenuPlan.Proofs.Plan.Strictness
import MenuPlan.Proofs.Plan.Naming
import MenuPlan.Proofs.CommandLine.Agreement
import MenuPlan.Proofs.Builders
import MenuPlan.Proofs.Plan.Parts
import MenuPlan.Proofs.Plan.Written
import MenuPlan.Proofs.Plan.LongForm
import MenuPlan.Proofs.PlanFile.Restoring
import MenuPlan.Proofs.Term.Canonical
import MenuPlan.Proofs.Portable.Reading
import MenuPlan.Proofs.CommandLine.Effects
import MenuPlan.Proofs.Plan.Counting
import MenuPlan.Proofs.Item.Reordering
import MenuPlan.Proofs.Plan.Blame
import MenuPlan.Proofs.Term.Resolution
import MenuPlan.Proofs.CommandLine.Validation
import MenuPlan.Proofs.Outline
import MenuPlan.Proofs.Item.Schema
