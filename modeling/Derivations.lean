import Derivations.Session
import Derivations.Store.Missing
import Derivations.Proofs.StringMap
import Derivations.Proofs.Json.Canonical
import Derivations.Proofs.Json.Printer
import Derivations.Proofs.Json.Fields
import Derivations.Proofs.Source.Encode
import Derivations.Proofs.Digest
import Derivations.Proofs.Graph.Basic
import Derivations.Proofs.Identity.Encoding
import Derivations.Proofs.Identity.Content
import Derivations.Proofs.Graph.Descent
import Derivations.Proofs.Graph.Closure
import Derivations.Proofs.Bench
import Derivations.Proofs.Graph.Made
import Derivations.Proofs.Graph.Simulation
import Derivations.Proofs.Session
import Derivations.Proofs.Identity.Merkle
import Derivations.Proofs.OutId
import Derivations.Proofs.FileTree
import Derivations.Proofs.Decimal.Rounding
import Derivations.Proofs.Decimal.Shortest
import Derivations.Proofs.Json.Numeral
import Derivations.Proofs.Json.NumberText
import Derivations.Proofs.Json.Spacing
import Derivations.Proofs.Json.Reader
import Derivations.Proofs.Json.Tree
import Derivations.Proofs.Json.Decode
import Derivations.Proofs.Source.Decode
import Derivations.Proofs.Recipe
import Derivations.Proofs.Graph.Traversal
import Derivations.Proofs.Store.Shelf
import Derivations.Proofs.Store.Missing
import Derivations.Proofs.Bench.Faults
import Derivations.Proofs.Session.Consistency
import Derivations.Proofs.Session.Stored
import Derivations.Proofs.Session.Contents
import Derivations.Proofs.Session.Complete
import Derivations.Proofs.Json.Equality
import Derivations.Proofs.Identity.Equality
import Derivations.Proofs.Source.Accepted
import Derivations.Proofs.Session.ReadBack
import Derivations.Proofs.Graph.Arena
import Derivations.Proofs.Session.Arena
import Derivations.Proofs.Json.Decoded
import Derivations.Proofs.Store.ReadBack
import Derivations.Proofs.Identity.Composite
import Derivations.Proofs.Json.Meaning
import Derivations.Proofs.Json.Steady
import Derivations.Proofs.Source.Steady
import Derivations.Proofs.Source.Reading
import Derivations.Proofs.Session.Unstored
import Derivations.Proofs.Store.Discovery
import Derivations.Proofs.StringMap.ByteOrder
import Derivations.Proofs.Json.NormalForm
import Derivations.Proofs.Graph.Replay
import Derivations.Proofs.Session.Composed
import Derivations.Proofs.Graph.Roots
import Derivations.Proofs.Json.ReadBack
import Derivations.Proofs.Session.Repeats
import Derivations.Proofs.Identity.Readings
import Derivations.Proofs.Identity.RunSpec
import Derivations.Proofs.FileTree.Agreement
import Derivations.Proofs.Store.Containment
import Derivations.Proofs.Store.Atomic
