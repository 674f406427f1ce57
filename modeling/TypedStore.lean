import TypedStore.Conformance.Suite
import TypedStore.Expansion
import TypedStore.Host.Derivation
import TypedStore.Proofs.Expansion.Naming
import TypedStore.Proofs.Expansion.Rereading
import TypedStore.Proofs.Expansion.RowOrder
import TypedStore.Proofs.Expansion.WellFormed
import TypedStore.Proofs.Extraction.Positions
import TypedStore.Proofs.Extraction.Rebuilding
import TypedStore.Proofs.Host.ColumnOrder
import TypedStore.Proofs.Host.Numbers
import TypedStore.Proofs.Host.RoundTrip
import TypedStore.Proofs.Plan.Alone
import TypedStore.Proofs.Plan.Durability
import TypedStore.Proofs.Plan.Runs
import TypedStore.Proofs.Plan.Spreading
import TypedStore.Proofs.Plan.Strategies
import TypedStore.Proofs.Plan.Undoing
import TypedStore.Proofs.Registry.DynamicSlots
import TypedStore.Proofs.Registry.Reordering
import TypedStore.Proofs.Server.Cataloguing
import TypedStore.Proofs.Server.Credentials
import TypedStore.Proofs.Text.Cutting
import TypedStore.Proofs.Wire.Binding
import TypedStore.Proofs.Wire.Reserving
import TypedStore.Scripted.Script
import TypedStore.Server.Script
