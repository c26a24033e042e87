import Replica.CommandLine.Run
import Replica.Fixtures
import Replica.Handler.Filter
import Replica.Main
import Replica.Message.Cbor
import Replica.Proofs.Accounting
import Replica.Proofs.Atomicity
import Replica.Proofs.Convergence
import Replica.Proofs.Dependencies
import Replica.Proofs.Integrity
import Replica.Proofs.Malformed
import Replica.Proofs.Redelivery
import Replica.Proofs.Retention
import Replica.Proofs.Publication
import Replica.Proofs.Fate
import Replica.Proofs.Ledger
import Replica.Proofs.Progress
import Replica.Proofs.Solo
import Replica.Proofs.Sequence
import Replica.Proofs.Delays
import Replica.Proofs.Disorder
import Replica.Proofs.Tally
import Replica.Proofs.Consumption
import Replica.Proofs.Floats
import Replica.Proofs.RoundTrip
import Replica.Proofs.Recovery
import Replica.Proofs.Evolution
import Replica.Proofs.Truncation
import Replica.Proofs.Foresight
import Replica.Proofs.Indifference
import Replica.Proofs.Transitions
import Replica.Proofs.Audit
import Replica.Proofs.Report
import Replica.Proofs.Polling
import Replica.Proofs.Deadline
import Replica.Proofs.Failure
import Replica.Proofs.Promptness
import Replica.Proofs.Problems
import Replica.Proofs.Register
import Replica.Proofs.Announcements
import Replica.Proofs.Listing
import Replica.Proofs.Framing
import Replica.Proofs.Headway
import Replica.Proofs.Enrolment
import Replica.Proofs.Canonicity
