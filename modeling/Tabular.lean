import Tabular.Bench.Desk
import Tabular.Bench.Script
import Tabular.Main
import Tabular.Proofs.Catalog.Coherence
import Tabular.Proofs.Catalog.GivenBack
import Tabular.Proofs.Catalog.Registries
import Tabular.Proofs.Connection.Atomic
import Tabular.Proofs.Coordinator.Representation
import Tabular.Proofs.Decimal.Exact
import Tabular.Proofs.Definition.InStep
import Tabular.Proofs.Engine.Agreement
import Tabular.Proofs.Interleaving.Leftovers
import Tabular.Proofs.Interleaving.Serial
import Tabular.Proofs.Relational.Dropped
import Tabular.Proofs.Pool.Conservation
import Tabular.Proofs.Provider.Sound
import Tabular.Proofs.Runner.Rollback
import Tabular.Proofs.Runner.Truthful
import Tabular.Proofs.Schema.Keys
import Tabular.Proofs.Sessions.OnePerThread
import Tabular.Proofs.Sql.Statements
import Tabular.Proofs.Tool.Count
import Tabular.Proofs.Versioned.Metadata
