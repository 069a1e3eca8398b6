import Depot.Arrange
import Depot.Command.Manage
import Depot.Main
import Depot.Proofs.InStep
import Depot.Proofs.Isolation
import Depot.Proofs.Retention
import Depot.Retention.Shelf
import Depot.Proofs.Prefixes
import Depot.Proofs.Retained
import Depot.Proofs.Sweeps
import Depot.Proofs.Staging
import Depot.Proofs.Quotients
import Depot.Proofs.Trees
import Depot.Proofs.Stocks
import Depot.Proofs.Cleanups
import Depot.Proofs.Agreement
import Depot.Proofs.Faults
import Depot.Proofs.Refusals
import Depot.Proofs.Beside
import Depot.Proofs.FileRetention
import Depot.Proofs.TreeRetention
import Depot.Proofs.RoundTrip
import Depot.Proofs.Racing
import Depot.Proofs.Shared
import Depot.Proofs.Texts
import Depot.Proofs.Repeats
import Depot.Proofs.Rounds
import Depot.Proofs.Pieces
import Depot.Proofs.Commands
import Depot.Proofs.Alike
