import Activation.Generator.Layout
import Activation.Main
import Activation.Proofs.Awaiters
import Activation.Proofs.Completion
import Activation.Proofs.Conservation
import Activation.Proofs.Counting
import Activation.Proofs.Encodings
import Activation.Proofs.Equivalence
import Activation.Proofs.Immortality
import Activation.Proofs.Lifecycle.Closing
import Activation.Proofs.Lifecycle.Refusals
import Activation.Proofs.Lines
import Activation.Proofs.Locking
import Activation.Proofs.Overrides
import Activation.Proofs.Positions
import Activation.Proofs.RefTotal
import Activation.Proofs.Settings
import Activation.Proofs.Stack.Assertions
import Activation.Proofs.Stack.Invariant
import Activation.Proofs.Stack.Neutral
import Activation.Proofs.Stack.Records
import Activation.Proofs.Stack.Verification
import Activation.Proofs.Ticker
import Activation.Proofs.Walk.Lookup
import Activation.Proofs.Walk.Materialization
import Activation.Proofs.Walk.Samples
import Activation.Script.Run
