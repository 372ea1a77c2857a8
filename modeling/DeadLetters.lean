import DeadLetters.CommandLine.Session
import DeadLetters.Main
import DeadLetters.Store.Archive
import DeadLetters.World.Steady
import DeadLetters.Proofs.History
import DeadLetters.Proofs.Table
import DeadLetters.Proofs.Footprint
import DeadLetters.Proofs.Handling
import DeadLetters.Proofs.Acknowledgement
import DeadLetters.Proofs.Redelivery
import DeadLetters.Proofs.Operation
import DeadLetters.Proofs.Lifecycle
import DeadLetters.Proofs.Replaying
import DeadLetters.Proofs.Agreement
import DeadLetters.Proofs.Json.Records
import DeadLetters.Proofs.Revalidation
import DeadLetters.Proofs.Republishing
import DeadLetters.Proofs.Uploading
import DeadLetters.Proofs.Stalling
import DeadLetters.Proofs.Statistics
import DeadLetters.Proofs.Drift
import DeadLetters.Proofs.Attributes
import DeadLetters.Proofs.Isolation
import DeadLetters.Proofs.Decision
import DeadLetters.Proofs.Failing
import DeadLetters.Proofs.Readback
import DeadLetters.Proofs.WireFormats
import DeadLetters.Proofs.Turnout
import DeadLetters.Proofs.Notifying
import DeadLetters.Proofs.Purging
import DeadLetters.Proofs.Accounting
import DeadLetters.Proofs.Softening
import DeadLetters.Proofs.Paging
import DeadLetters.Proofs.Repeating
import DeadLetters.Proofs.Reordering
import DeadLetters.Proofs.Polling
import DeadLetters.Proofs.Sequence
import DeadLetters.Proofs.Layering
