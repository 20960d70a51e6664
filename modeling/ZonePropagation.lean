import ZonePropagation.Http.Service
import ZonePropagation.Json.Printer
import ZonePropagation.Main
import ZonePropagation.Proofs.Propagation.Activation
import ZonePropagation.Proofs.Propagation.Arrival
import ZonePropagation.Proofs.Propagation.Inline
import ZonePropagation.Proofs.Propagation.Removal
import ZonePropagation.Proofs.Quorum.Completion
import ZonePropagation.Propagation.Document
import ZonePropagation.Session.Script
import ZonePropagation.Settings.Document
import ZonePropagation.Shutdown
import ZonePropagation.Simulation.Document
import ZonePropagation.Status.Cache
import ZonePropagation.Status.Document
import ZonePropagation.Zone.Document
import ZonePropagation.Proofs.Interleaving.Locks
import ZonePropagation.Proofs.Propagation.Locking
import ZonePropagation.Proofs.Propagation.Callers
import ZonePropagation.Proofs.Propagation.Confirmation
import ZonePropagation.Proofs.Propagation.SingleReport
import ZonePropagation.Proofs.Propagation.Undecided
import ZonePropagation.Proofs.Message.Reencoding
import ZonePropagation.Proofs.Signature.Verification
import ZonePropagation.Proofs.Registry.Overlap
import ZonePropagation.Proofs.Status.Cache
import ZonePropagation.Proofs.Status.Expiry
import ZonePropagation.Proofs.Status.Table
import ZonePropagation.Proofs.Settings.SigningKeys
import ZonePropagation.Proofs.Registry.Selection
import ZonePropagation.Proofs.Message.Extension
import ZonePropagation.Proofs.Message.Truncation
import ZonePropagation.Proofs.Propagation.Undelivered
import ZonePropagation.Proofs.Message.Counts
import ZonePropagation.Proofs.Propagation.Inquiry
import ZonePropagation.Proofs.Name.Limits
import ZonePropagation.Proofs.Message.Owners
import ZonePropagation.Proofs.Probe.Trust
import ZonePropagation.Proofs.Probe.Transfer
import ZonePropagation.Proofs.Propagation.Selection
import ZonePropagation.Proofs.Propagation.Batch
import ZonePropagation.Proofs.Propagation.Leftovers
import ZonePropagation.Proofs.Status.Untimed
import ZonePropagation.Proofs.Status.Reaping
import ZonePropagation.Proofs.Status.Encoding
import ZonePropagation.Proofs.Propagation.Repetition
import ZonePropagation.Proofs.Propagation.Sequence
import ZonePropagation.Proofs.Registry.History
import ZonePropagation.Proofs.Provisioner.Targets
import ZonePropagation.Proofs.Serial.Window
import ZonePropagation.Proofs.Name.Equality
import ZonePropagation.Proofs.Registry.Tenancy
import ZonePropagation.Proofs.Registry.Drift
import ZonePropagation.Proofs.Name.Course
import ZonePropagation.Proofs.Message.Bounds
