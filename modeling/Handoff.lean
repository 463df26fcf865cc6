import Handoff.Fleet
import Handoff.Main
import Handoff.Signal.Relay
import Handoff.Proofs.Descriptor.RoundTrip
import Handoff.Proofs.Fd.Table
import Handoff.Proofs.Acquire
import Handoff.Proofs.Export
import Handoff.Proofs.Spawn.Inheritance
import Handoff.Proofs.Coordinator.Calls
import Handoff.Proofs.Coordinator.Runs
import Handoff.Proofs.Coordinator.Order
import Handoff.Proofs.Coordinator.Loop
import Handoff.Proofs.Lineage.Steps
import Handoff.Proofs.System.Bind
import Handoff.Proofs.Spawn.Replacement
import Handoff.Proofs.Spawn.Failure
import Handoff.Proofs.Lineage.Socket
import Handoff.Proofs.Acquire.Consumption
import Handoff.Proofs.Signal.Delivery
import Handoff.Proofs.Coordinator.Reload
import Handoff.Proofs.Listener.Ownership
import Handoff.Proofs.Spawn.Handles
import Handoff.Proofs.Spawn.Atomicity
import Handoff.Proofs.Echo.Accounting
import Handoff.Proofs.Drain
import Handoff.Proofs.Server.Steps
import Handoff.Proofs.Server.Connections
import Handoff.Proofs.Server.Handles
import Handoff.Proofs.Server.Relaunch
import Handoff.Proofs.Acquire.Metadata
import Handoff.Proofs.Echo.Lines
import Handoff.Proofs.Echo.Stream
import Handoff.Proofs.Server.Isolation
import Handoff.Proofs.Drain.Schedule
import Handoff.Proofs.Drain.Wakeup
import Handoff.Proofs.Coordinator.Children
import Handoff.Proofs.Coordinator.Log
import Handoff.Proofs.Listener.Exports
import Handoff.Proofs.Spawn.Install
import Handoff.Proofs.Config
import Handoff.Proofs.Spawn.Entry
