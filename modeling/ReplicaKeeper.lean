import ReplicaKeeper.Api.Error
import ReplicaKeeper.Api.Key
import ReplicaKeeper.Api.Request
import ReplicaKeeper.Cli.Option
import ReplicaKeeper.Cli.Parser
import ReplicaKeeper.Cli.RunOptions
import ReplicaKeeper.Cli.Stop
import ReplicaKeeper.Config
import ReplicaKeeper.Controller.Agenda
import ReplicaKeeper.Controller.Basic
import ReplicaKeeper.Controller.Cache
import ReplicaKeeper.Controller.Remote
import ReplicaKeeper.Controller.Watch
import ReplicaKeeper.Decimal.Notation
import ReplicaKeeper.Decimal.Shortest
import ReplicaKeeper.Decode.Basic
import ReplicaKeeper.Decode.Error
import ReplicaKeeper.Entries
import ReplicaKeeper.Http.Client
import ReplicaKeeper.Http.Endpoint
import ReplicaKeeper.Http.Message
import ReplicaKeeper.Http.Script
import ReplicaKeeper.Http.Uri
import ReplicaKeeper.Json.Basic
import ReplicaKeeper.Json.Document
import ReplicaKeeper.Json.Number
import ReplicaKeeper.Json.Pointer
import ReplicaKeeper.Json.Reader
import ReplicaKeeper.Json.Token
import ReplicaKeeper.Json.Writer
import ReplicaKeeper.Main
import ReplicaKeeper.MergePatch
import ReplicaKeeper.Object.Condition
import ReplicaKeeper.Object.Deployment
import ReplicaKeeper.Object.Labels
import ReplicaKeeper.Object.Meta
import ReplicaKeeper.Object.Reference
import ReplicaKeeper.Object.Scaler
import ReplicaKeeper.Object.Workload
import ReplicaKeeper.Ownership
import ReplicaKeeper.Program
import ReplicaKeeper.Reconcile.Attempt
import ReplicaKeeper.Reconcile.Run
import ReplicaKeeper.Reconcile.Session
import ReplicaKeeper.Reconcile.Step
import ReplicaKeeper.Reconcile.Store
import ReplicaKeeper.Resource.Definition
import ReplicaKeeper.Resource.Schema
import ReplicaKeeper.Server.Objects
import ReplicaKeeper.Server.Shared
import ReplicaKeeper.Server.State
import ReplicaKeeper.Server.Store
import ReplicaKeeper.Text.Blank
import ReplicaKeeper.Text.Hidden
import ReplicaKeeper.Text.Line
import ReplicaKeeper.Text.Quoted
import ReplicaKeeper.Text.Terminal
import ReplicaKeeper.Time.Basic
import ReplicaKeeper.Time.Calendar
import ReplicaKeeper.Time.Reader
import ReplicaKeeper.Yaml
import ReplicaKeeper.Proofs.Condition
import ReplicaKeeper.Proofs.Reconcile.Finding
import ReplicaKeeper.Proofs.Reconcile.History
import ReplicaKeeper.Proofs.Reconcile.Discipline
import ReplicaKeeper.Proofs.Reconcile.Provenance
import ReplicaKeeper.Proofs.Reconcile.Recording
import ReplicaKeeper.Proofs.Reconcile.Rounds
import ReplicaKeeper.Proofs.Ownership
import ReplicaKeeper.Proofs.Reconcile.Bound
import ReplicaKeeper.Proofs.Reconcile.Course
import ReplicaKeeper.Proofs.Json.Plain
import ReplicaKeeper.Proofs.Json.Equality
import ReplicaKeeper.Proofs.MergePatch
import ReplicaKeeper.Proofs.MergePatch.NullCover
import ReplicaKeeper.Proofs.MergePatch.ThreeWay
import ReplicaKeeper.Proofs.MergePatch.Repeating
import ReplicaKeeper.Proofs.Time.Calendar
import ReplicaKeeper.Proofs.Time.Text
import ReplicaKeeper.Proofs.Decode.ReadsBack
import ReplicaKeeper.Proofs.Object.Rereading
import ReplicaKeeper.Proofs.Reconcile.Patch
import ReplicaKeeper.Proofs.Reconcile.Overlay
import ReplicaKeeper.Proofs.Reconcile.Trail
import ReplicaKeeper.Proofs.Server.Patching
import ReplicaKeeper.Proofs.Server.Deeds
import ReplicaKeeper.Proofs.Reconcile.Effect
import ReplicaKeeper.Proofs.Reconcile.Repetition
import ReplicaKeeper.Proofs.Server.Versions
import ReplicaKeeper.Proofs.Server.Issuing
import ReplicaKeeper.Proofs.Reconcile.Interleaving
import ReplicaKeeper.Proofs.Reconcile.Atomicity
import ReplicaKeeper.Proofs.Reconcile.Freshness
import ReplicaKeeper.Proofs.Reconcile.Race
import ReplicaKeeper.Proofs.Reconcile.Rivals
import ReplicaKeeper.Proofs.Server.Faults
import ReplicaKeeper.Proofs.Reconcile.Commuting
import ReplicaKeeper.Proofs.Reconcile.Healing
import ReplicaKeeper.Proofs.Server.Identity
import ReplicaKeeper.Proofs.Reconcile.Pins
import ReplicaKeeper.Proofs.Reconcile.Scan
import ReplicaKeeper.Proofs.MergePatch.Mentions
import ReplicaKeeper.Proofs.Reconcile.Sent
import ReplicaKeeper.Proofs.Ownership.Marking
import ReplicaKeeper.Proofs.Ownership.Doubles
import ReplicaKeeper.Proofs.Condition.Runs
import ReplicaKeeper.Proofs.Server.Failing
import ReplicaKeeper.Proofs.Decode.Settling
import ReplicaKeeper.Proofs.Object.Settling
import ReplicaKeeper.Proofs.Server.Retrying
import ReplicaKeeper.Proofs.Server.Queues
import ReplicaKeeper.Proofs.Controller.Waking
import ReplicaKeeper.Proofs.Decode.Showing
import ReplicaKeeper.Proofs.Time.Reading
import ReplicaKeeper.Proofs.Decode.RoundTrips
import ReplicaKeeper.Proofs.Object.Showing
import ReplicaKeeper.Proofs.Object.RoundTrips
import ReplicaKeeper.Proofs.Http.Targets
