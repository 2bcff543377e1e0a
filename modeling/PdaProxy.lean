import PdaProxy.Semantics.Transition
import PdaProxy.Semantics.Pool
import PdaProxy.Semantics.Ledger
import PdaProxy.Semantics.Serialization
import PdaProxy.Semantics.Keystream
import PdaProxy.Semantics.Outcome
import PdaProxy.Semantics.Tracking
import PdaProxy.Semantics.Noninterference
import PdaProxy.Semantics.Quiescence
import PdaProxy.Semantics.Restriction
import PdaProxy.Json
import PdaProxy.Job
import PdaProxy.Zkvm
import PdaProxy.Dependencies
import PdaProxy.Runner
import PdaProxy.Handler
import PdaProxy.System
import PdaProxy.SystemSteps
import PdaProxy.Assertions
import PdaProxy.StoreInvariant
import PdaProxy.Recovery
import PdaProxy.JobLedger
import PdaProxy.Scheduling
import PdaProxy.Orphans
import PdaProxy.SingleFlight
import PdaProxy.LocalProving
import PdaProxy.Egress
import PdaProxy.Decryption
import PdaProxy.Rewriting
import PdaProxy.Pending
import PdaProxy.Service
import PdaProxy.Binding
import PdaProxy.Nonces
import PdaProxy.Shutdown
import PdaProxy.Logging
import PdaProxy.Machine
import PdaProxy.Secrecy
import PdaProxy.Format
import PdaProxy.Replies
import PdaProxy.SetupCache
import PdaProxy.Completion
import PdaProxy.Gateway
import PdaProxy.Delivery
import PdaProxy.Authorization
import PdaProxy.Resubmission
import PdaProxy.Isolation
import PdaProxy.SetupCompletion
import PdaProxy.Stranding
import PdaProxy.SerialCalls
import PdaProxy.Lifecycle
import PdaProxy.Spending
