import ExitRelay.Handler
import ExitRelay.Proofs.Ending
import ExitRelay.Proofs.Update
import ExitRelay.Proofs.Primitive
import ExitRelay.Proofs.Effect
import ExitRelay.Proofs.Footprint.Processor
import ExitRelay.Proofs.Footprint.Delivery
import ExitRelay.Proofs.Footprint.Exit
import ExitRelay.Proofs.Preservation
import ExitRelay.Proofs.Operation
import ExitRelay.Proofs.Isolation
import ExitRelay.Proofs.Execution.Delivery
import ExitRelay.Proofs.Decline
import ExitRelay.Proofs.Execution.Exit
import ExitRelay.Proofs.InFlight
import ExitRelay.Proofs.Balance
import ExitRelay.Proofs.Conservation
import ExitRelay.Proofs.Confinement
import ExitRelay.Proofs.Deadline
import ExitRelay.Proofs.Heeding
import ExitRelay.Proofs.Withdrawal
import ExitRelay.Proofs.Holding
import ExitRelay.Proofs.Completion
import ExitRelay.Proofs.Transfer
import ExitRelay.Proofs.Membership
import ExitRelay.Proofs.Rounds
import ExitRelay.Proofs.Reentry
import ExitRelay.Proofs.Rejection
import ExitRelay.Proofs.Registration
import ExitRelay.Proofs.Alignment
import ExitRelay.Proofs.Execution.Call
import ExitRelay.Proofs.Execution.Subscription
import ExitRelay.Proofs.Toggling
import ExitRelay.Proofs.Switching
import ExitRelay.Proofs.Independence
import ExitRelay.Proofs.Disclosure
import ExitRelay.Proofs.Interruption
import ExitRelay.Proofs.Sharing
import ExitRelay.Proofs.Execution.Question
import ExitRelay.Proofs.Waiting
import ExitRelay.Proofs.Unanswered
import ExitRelay.Proofs.Custody
import ExitRelay.Proofs.Stranding
import ExitRelay.Proofs.Vanished
import ExitRelay.Proofs.Translation
import ExitRelay.Proofs.DefaultHandling
import ExitRelay.Proofs.Injection
import ExitRelay.Proofs.Reading
import ExitRelay.Proofs.Cursor
import ExitRelay.Proofs.Rollback
import ExitRelay.Proofs.Ownership
import ExitRelay.Proofs.Excursion
import ExitRelay.Proofs.Enumeration
import ExitRelay.Proofs.Legibility
