import ForkWatch.Main
import ForkWatch.Rehearsal.Desk
import ForkWatch.Rehearsal.Disk
import ForkWatch.Rehearsal.Run
import ForkWatch.Proofs.Course
import ForkWatch.Proofs.Traversal
import ForkWatch.Proofs.Classification
import ForkWatch.Proofs.Commit
import ForkWatch.Proofs.Proposal
import ForkWatch.Proofs.Delivery
import ForkWatch.Proofs.Standing
import ForkWatch.Proofs.Alternation
import ForkWatch.Proofs.History
import ForkWatch.Proofs.Tandem
import ForkWatch.Proofs.View
import ForkWatch.Proofs.Spelling
import ForkWatch.Proofs.Adjoining
import ForkWatch.Proofs.Coverage
import ForkWatch.Proofs.Restart
import ForkWatch.Proofs.Policies
import ForkWatch.Proofs.Ranges
import ForkWatch.Proofs.Ticks
import ForkWatch.Proofs.WalkBacks
import ForkWatch.Proofs.Handoff
import ForkWatch.Proofs.Presentation
import ForkWatch.Proofs.RootCause
import ForkWatch.Proofs.FixedChain
import ForkWatch.Proofs.Convergence
import ForkWatch.Proofs.Cancellation
import ForkWatch.Proofs.Isolation
import ForkWatch.Proofs.ByteOrder
import ForkWatch.Proofs.Upkeep
import ForkWatch.Proofs.Exactness
import ForkWatch.Proofs.Json.RoundTrip
import ForkWatch.Proofs.Survival
import ForkWatch.Proofs.FixedPoint
import ForkWatch.Proofs.Redelivery
import ForkWatch.Proofs.FailedTicks
import ForkWatch.Proofs.Fetching
import ForkWatch.Proofs.Outliers
import ForkWatch.Proofs.Rewind
import ForkWatch.Proofs.Waiting
import ForkWatch.Proofs.CleanPrefix
import ForkWatch.Proofs.Quantities
import ForkWatch.Proofs.Attempts
import ForkWatch.Proofs.Json.Skipping
import ForkWatch.Proofs.Json.Slots
import ForkWatch.Proofs.Json.Reading
import ForkWatch.Proofs.Overlays
import ForkWatch.Proofs.NormalForm
import ForkWatch.Proofs.Commands
import ForkWatch.Proofs.Recollection
import ForkWatch.Proofs.Tracking
import ForkWatch.Proofs.Rehearsal
