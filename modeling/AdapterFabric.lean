import AdapterFabric.Canonical
import AdapterFabric.Framing
import AdapterFabric.Capacity.Calls
import AdapterFabric.Fabric.Attempt
import AdapterFabric.Fabric.BoundFence
import AdapterFabric.Fabric.Revocation
import AdapterFabric.Fabric.Freshness
import AdapterFabric.Fabric.Restart
import AdapterFabric.Fabric.Consistent
import AdapterFabric.Fabric.Independent
import AdapterFabric.Fabric.Eviction
import AdapterFabric.Fabric.Reload
import AdapterFabric.Fabric.Reuse
import AdapterFabric.Coordinator.Release
import AdapterFabric.Coordinator.Ended
import AdapterFabric.Coordinator.Checked
import AdapterFabric.Coordinator.Accounting
import AdapterFabric.Coordinator.Agreement
import AdapterFabric.Coordinator.Lifecycle
import AdapterFabric.Identity.Text
import AdapterFabric.Lib.EncodedKeys
import AdapterFabric.Fabric.Keys
import AdapterFabric.Composition.Digest
import AdapterFabric.Compatibility.Verdict
import AdapterFabric.Fabric.Acceptance
import AdapterFabric.Fabric.MemoryTotal
import AdapterFabric.Persistence.Access
import AdapterFabric.Persistence.Decoders
import AdapterFabric.Cuda.Lora
import AdapterFabric.Lib.Json
import AdapterFabric.Explain
import AdapterFabric.Coordinator.Registration
import AdapterFabric.Fabric.Validation
import AdapterFabric.Coordinator.Validation
import AdapterFabric.Coordinator.Provenance
import AdapterFabric.Coordinator.Quota
import AdapterFabric.Coordinator.Audit
import AdapterFabric.Capacity.Adjust
import AdapterFabric.Identity.Generator
import AdapterFabric.Migration
import AdapterFabric.Fabric.Reference
import AdapterFabric.Cuda.Copies
import AdapterFabric.Checksum.Bursts
import AdapterFabric.Coordinator.InFlight
import AdapterFabric.Explain.Faithful
import AdapterFabric.Framing.Broken
import AdapterFabric.Coordinator.Responsive
import AdapterFabric.Coordinator.Waiting
