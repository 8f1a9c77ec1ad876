import Subyard.Lease.Shape
import Subyard.Lease.Fencing
import Subyard.Lease.Headroom
import Subyard.Lease.Resize
import Subyard.Lease.Identity
import Subyard.Lease.Admission
import Subyard.Lease.Crash
import Subyard.History.Trace
import Subyard.Ledger.Retirement
import Subyard.Ledger.Conversion
import Subyard.Release.Links
import Subyard.YardNetwork.Approval
import Subyard.Operation.Orchestrator
import Subyard.Credential.Sync
import Subyard.Release.Transactions
import Subyard.State.Selectors
import Subyard.State.Identifiers
import Subyard.Telemetry.RunReport
import Subyard.Telemetry.Batches
import Subyard.Rpc.Protocol
import Subyard.Telemetry.Hierarchy
import Subyard.Github.Diagnostics
import Subyard.Operation.Recheck
import Subyard.Resource.Assessment
import Subyard.Android.Pool
import Subyard.Migration.Template
