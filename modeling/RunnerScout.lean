import RunnerScout.Interaction.Program
import RunnerScout.Interaction.Trace
import RunnerScout.Interaction.Concurrency
import RunnerScout.Interaction.Parallel
import RunnerScout.Golang
import RunnerScout.Json
import RunnerScout.Netip
import RunnerScout.Base64
import RunnerScout.Azurequeue
import RunnerScout.Xml
import RunnerScout.Wireguard.Overlay
import RunnerScout.Wireguard.Agent
import RunnerScout.Wireguard.PeerPoll
import RunnerScout.Placement
import RunnerScout.Placement.Choice
import RunnerScout.Recovery
import RunnerScout.Lifecycle.Allocation
import RunnerScout.Lifecycle.Resources
import RunnerScout.Lifecycle.Controller
import RunnerScout.Lifecycle.StepProtocol
import RunnerScout.Lifecycle.Cell
import RunnerScout.Operator.Jobs
import RunnerScout.Lifecycle.CreateLedger
import RunnerScout.Lifecycle.Orphans
import RunnerScout.Lifecycle.Registration
import RunnerScout.Provider.Cloud
import RunnerScout.Provider.Adapter
import RunnerScout.Provider.AwsInventory
import RunnerScout.Provider.AzureInventory
import RunnerScout.Provider.GcpInventory
import RunnerScout.Provider.Create
import RunnerScout.Provider.Delete
import RunnerScout.Provider.AwsEvidence
import RunnerScout.Provider.Pagination
import RunnerScout.Provider.Evidence
import RunnerScout.Provider.ProvenAbsence
import RunnerScout.Provider.Deletion
import RunnerScout.Provider.DiskOwnership
import RunnerScout.Provider.Envelope
import RunnerScout.Provider.Outcome
import RunnerScout.Provider.Stepping
import RunnerScout.Provider.Retry
import RunnerScout.Provider.Unsent
import RunnerScout.Provider.Signal
import RunnerScout.Operator.Fleet
import RunnerScout.Operator.Calls
import RunnerScout.Operator.Encoding
import RunnerScout.Operator.Githubjobs
import RunnerScout.State.Kubernetes
import RunnerScout.Operator.Admission
import RunnerScout.Operator.Prices
import RunnerScout.Prices.Skus
import RunnerScout.Configapi.Types
import RunnerScout.Configapi.Compile
import RunnerScout.State.Cluster
import RunnerScout.State.Operations
import RunnerScout.Operator.Retry
import RunnerScout.Operator.Tick
import RunnerScout.State.Replay
import RunnerScout.State.References
import RunnerScout.State.Format
import RunnerScout.State.Cycle
import RunnerScout.Capacity.Admits
import RunnerScout.Capacity.Whole
import RunnerScout.Capacity.Books
import RunnerScout.Capacity.Shared
import RunnerScout.Capacity.Workers
import RunnerScout.Capacity.Admission
import RunnerScout.Capacity.Cycle
import RunnerScout.Capacity.Runs
import RunnerScout.Capacity.Slots
import RunnerScout.Capacity.Budget
import RunnerScout.Capacity.Ceiling
import RunnerScout.Capacity.Ownership
import RunnerScout.Capacity.Overlay
import RunnerScout.Capacity.Drain
import RunnerScout.Reruns.Machine
import RunnerScout.Reruns.Listing
import RunnerScout.Reruns.Passes
import RunnerScout.Reruns.Repeats
import RunnerScout.Reruns.Bound
import RunnerScout.Reruns.Streak
import RunnerScout.Journal.Record
import RunnerScout.Journal.Monotone
import RunnerScout.Journal.Exhaustion
import RunnerScout.Ticks.Log
import RunnerScout.Ticks.Workers
import RunnerScout.Ticks.Cycle
import RunnerScout.Ticks.Retirement
import RunnerScout.Ticks.Interruption
import RunnerScout.Ticks.Registration
import RunnerScout.Interaction.Fallible
import RunnerScout.Interaction.History
import RunnerScout.Configapi.Calls
import RunnerScout.Configapi.Secrets
import RunnerScout.Configapi.Load
import RunnerScout.Configapi.Cut
import RunnerScout.Configapi.Key
import RunnerScout.Configapi.Checkpoint
