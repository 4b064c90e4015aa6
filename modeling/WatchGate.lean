import WatchGate.Access
import WatchGate.Bytes.Base64
import WatchGate.Bytes.Sha1
import WatchGate.Catalog
import WatchGate.Cluster.Api
import WatchGate.Cluster.Discovery
import WatchGate.Cluster.Namespaces
import WatchGate.Cluster.Review
import WatchGate.CommandLine.Listing
import WatchGate.Consultation
import WatchGate.Crowd
import WatchGate.Ensemble
import WatchGate.Gateway
import WatchGate.Http
import WatchGate.Identity
import WatchGate.Json.Parser
import WatchGate.Json.Printer
import WatchGate.Main
import WatchGate.Multiwatch.Dial
import WatchGate.Multiwatch.Rehearsal
import WatchGate.Multiwatch.Session
import WatchGate.Network
import WatchGate.Policy
import WatchGate.Probe.Machine
import WatchGate.Probe.Reference
import WatchGate.Proofs.Arrival
import WatchGate.Proofs.BasePath
import WatchGate.Proofs.Consultation
import WatchGate.Proofs.Credentials
import WatchGate.Proofs.Crowd
import WatchGate.Proofs.Discovery
import WatchGate.Proofs.Discretion
import WatchGate.Proofs.Ensemble
import WatchGate.Proofs.Forwarding
import WatchGate.Proofs.Handshake
import WatchGate.Proofs.Insertion
import WatchGate.Proofs.Parameters
import WatchGate.Proofs.Probe.Accounts
import WatchGate.Proofs.Probe.Barrier
import WatchGate.Proofs.Probe.Completion
import WatchGate.Proofs.Probe.Permits
import WatchGate.Proofs.Probe.Schedules
import WatchGate.Proofs.Probe.Waves
import WatchGate.Proofs.Relay
import WatchGate.Proofs.Review
import WatchGate.Proofs.Rights
import WatchGate.Proofs.Scheme
import WatchGate.Proofs.Session.Counts
import WatchGate.Proofs.Session.Delivery
import WatchGate.Proofs.Session.Flush
import WatchGate.Proofs.Session.Lifetime
import WatchGate.Proofs.Session.Order
import WatchGate.Proofs.Session.Reading
import WatchGate.Proofs.Session.Turns
import WatchGate.Proofs.Streams
import WatchGate.Proofs.Summary
import WatchGate.Proofs.UnknownKind
import WatchGate.Proofs.Upgrade
import WatchGate.Proofs.Version
import WatchGate.Rights
import WatchGate.Server
import WatchGate.Startup
import WatchGate.Startup.Trial
import WatchGate.Text.Alphanumeric
import WatchGate.Text.Utf8
import WatchGate.WatchPlan
