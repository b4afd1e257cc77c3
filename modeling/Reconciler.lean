import Reconciler.Api.Watch
import Reconciler.CommandLine.Process
import Reconciler.Controller.Loop
import Reconciler.Json.Reader
import Reconciler.Json.Writer
import Reconciler.Main
import Reconciler.Random.Keystream
import Reconciler.Retry
import Reconciler.Store.Versioned
import Reconciler.Workspace.Decode
import Reconciler.Workspace.Encode
import Reconciler.Proofs.Cancellation
import Reconciler.Proofs.Chronicle.Attribution
import Reconciler.Proofs.Chronicle.Basic
import Reconciler.Proofs.Chronicle.Growth
import Reconciler.Proofs.Chronicle.Shelf
import Reconciler.Proofs.Converged.Course
import Reconciler.Proofs.Converged.Ledger
import Reconciler.Proofs.Converged.Rest
import Reconciler.Proofs.Counting
import Reconciler.Proofs.Course.Basic
import Reconciler.Proofs.Course.Complete
import Reconciler.Proofs.Course.Outset
import Reconciler.Proofs.Course.Trace
import Reconciler.Proofs.Course.Turnout
import Reconciler.Proofs.Deletion
import Reconciler.Proofs.Encoding.Calendar
import Reconciler.Proofs.Encoding.RoundTrip
import Reconciler.Proofs.Encoding.Status
import Reconciler.Proofs.Encoding.Texts
import Reconciler.Proofs.Encoding.Times
import Reconciler.Proofs.Encoding.Workspaces
import Reconciler.Proofs.FinalLedger
import Reconciler.Proofs.FinalizerProtocol
import Reconciler.Proofs.Finalizers
import Reconciler.Proofs.Independence.Commuting
import Reconciler.Proofs.Independence.InStep
import Reconciler.Proofs.Ledger
import Reconciler.Proofs.LostUpdate
import Reconciler.Proofs.MergePatch
import Reconciler.Proofs.Merging
import Reconciler.Proofs.Namespaces.Cleanup
import Reconciler.Proofs.Namespaces.Course
import Reconciler.Proofs.ObservedGeneration
import Reconciler.Proofs.Ownership
import Reconciler.Proofs.Pending
import Reconciler.Proofs.RefreshMarker
import Reconciler.Proofs.Registration
import Reconciler.Proofs.Reporting
import Reconciler.Proofs.Requeue
import Reconciler.Proofs.Retrying.Backoff
import Reconciler.Proofs.Retrying.Conflicts
import Reconciler.Proofs.Retrying.Course
import Reconciler.Proofs.Setup
import Reconciler.Proofs.SharedTokens
import Reconciler.Proofs.SkipDecision
import Reconciler.Proofs.Skipping
import Reconciler.Proofs.StatusPatch
import Reconciler.Proofs.StatusWrite
import Reconciler.Proofs.SweepOrder
import Reconciler.Proofs.TransitionTime
import Reconciler.Proofs.Upserts
import Reconciler.Proofs.Wrapping
