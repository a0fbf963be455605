import Netvisor.Lib.Transition
import Netvisor.Lib.Assoc
import Netvisor.Entities
import Netvisor.Hosts.Api
import Netvisor.Daemon.Buffer
import Netvisor.Daemon.BufferPolling
import Netvisor.Discovery.Types
import Netvisor.Discovery.Service
import Netvisor.Discovery.Sessions
import Netvisor.Discovery.ServiceFacts
import Netvisor.Discovery.SessionsFacts
import Netvisor.Discovery.Dispatch
import Netvisor.Discovery.Queues
import Netvisor.Discovery.Stalls
import Netvisor.Discovery.History
import Netvisor.Discovery.Confinement
import Netvisor.Lib.Program
import Netvisor.Lib.Table
import Netvisor.Storage
import Netvisor.Bindings.Handlers
import Netvisor.Services.Saving
import Netvisor.Hosts.Service
import Netvisor.Services.Writes
import Netvisor.Bindings.HandlersFacts
import Netvisor.Hosts.ServiceFacts
import Netvisor.Services.System
import Netvisor.Services.Minimality
import Netvisor.Services.Exclusivity
import Netvisor.Daemons.Subscriber
import Netvisor.Discovery.Announcements
import Netvisor.Discovery.Release
import Netvisor.Daemon.DiscoveryService
import Netvisor.Daemon.TerminalPolling
import Netvisor.Daemon.Runners
import Netvisor.Discovery.Cancellation
import Netvisor.Hosts.Consolidation
import Netvisor.Hosts.ConsolidationFacts
import Netvisor.Hosts.Duplicates
import Netvisor.Lib.Process
import Netvisor.Hosts.Update
import Netvisor.Hosts.Versions
import Netvisor.Hosts.Resolution
import Netvisor.Lib.Commuting
import Netvisor.Subnets.Service
import Netvisor.Subnets.Idempotence
import Netvisor.Daemons.Service
import Netvisor.Hosts.SubnetChanges
import Netvisor.Daemons.PollingModes
import Netvisor.Daemon.SessionManager
import Netvisor.Bindings.Creation
import Netvisor.Auth.Accounts
import Netvisor.Auth.AccountsFacts
import Netvisor.Auth.Oidc
import Netvisor.Auth.Identity
import Netvisor.Auth.ApiKeys
import Netvisor.Auth.Revocation
import Netvisor.UserApiKeys.Handlers
import Netvisor.Users.HandlersFacts
import Netvisor.Users.Confinement
import Netvisor.UserApiKeys.Bounds
import Netvisor.Topology.Handlers
import Netvisor.Topology.Isolation
import Netvisor.Shares.Handlers
import Netvisor.Shares.Publication
import Netvisor.Daemons.Registration
import Netvisor.Daemons.Handlers
import Netvisor.Daemons.RegistrationFacts
import Netvisor.Daemons.KeyConfinement
import Netvisor.Discovery.Handlers
import Netvisor.Discovery.Veil
import Netvisor.Discovery.Secrecy
import Netvisor.Auth.Service
import Netvisor.Auth.Verification
import Netvisor.Auth.Lockout
import Netvisor.Auth.Credentials
import Netvisor.Lib.Failing
import Netvisor.Tags.Service
import Netvisor.Tags.Confinement
import Netvisor.Discovery.Scheduling
import Netvisor.Discovery.Mirror
import Netvisor.Discovery.JobRuns
import Netvisor.Discovery.Targets
import Netvisor.Crud.Service
import Netvisor.Crud.Truth
import Netvisor.Groups.Service
import Netvisor.Topology.Subscriber
import Netvisor.Topology.SubscriberFacts
import Netvisor.Topology.Staleness
import Netvisor.Topology.Batching
import Netvisor.Topology.Removals
import Netvisor.Topology.Edits
import Netvisor.Lib.Pool
import Netvisor.Users.Deletion
import Netvisor.Users.DeletionFacts
import Netvisor.Users.Owners
import Netvisor.Invites.Handlers
import Netvisor.Invites.HandlersFacts
import Netvisor.Invites.Admission
import Netvisor.Crud.Rows
import Netvisor.Billing.Restrictions
import Netvisor.Billing.RestrictionsFacts
import Netvisor.Billing.Enforcement
import Netvisor.Hosts.Creation
import Netvisor.Lib.Rely
import Netvisor.Hosts.Limit
import Netvisor.Hosts.LimitFacts
import Netvisor.Hosts.Allowance
import Netvisor.Lib.Sorting
import Netvisor.Services.PatternSemantics
import Netvisor.Services.Probes
import Netvisor.Services.DiscoveredPorts
import Netvisor.Tags.Setting
import Netvisor.Crud.Listing
import Netvisor.Crud.Pages
import Netvisor.Discovery.Locks
import Netvisor.Topology.Context
import Netvisor.Topology.EdgeBuilder
import Netvisor.Lib.Spacing
import Netvisor.Topology.Planner
import Netvisor.Topology.Optimizer
import Netvisor.Topology.PlannerFacts
import Netvisor.Topology.OptimizerFacts
import Netvisor.Topology.EdgeBuilderFacts
import Netvisor.Topology.Visibility
import Netvisor.Topology.DockerGrouping
import Netvisor.Lib.Gather
import Netvisor.Lib.Utf8
import Netvisor.Snmp.Conversion
import Netvisor.Snmp.Interfaces
import Netvisor.Snmp.Neighbors
import Netvisor.Snmp.ChassisIds
import Netvisor.Daemon.ArpReceiver
import Netvisor.Daemon.DeepScan
import Netvisor.Daemon.ScanController
import Netvisor.Daemon.BatchScan
import Netvisor.Daemon.Pipeline
import Netvisor.Daemon.ScanProgress
import Netvisor.Daemon.ProgressReports
import Netvisor.Topology.SubnetCompression
import Netvisor.Topology.SubnetBoxes
import Netvisor.Topology.ChildBoxes
import Netvisor.IfEntries.AddressTexts
import Netvisor.IfEntries.Storage
import Netvisor.Hosts.Representation
import Netvisor.Hosts.Merging
import Netvisor.Lib.Matching
import Netvisor.Billing.PlanChanges
import Netvisor.Hosts.Matching
import Netvisor.Discovery.HistoricalRows
import Netvisor.IfEntries.Handlers
import Netvisor.IfEntries.Neighbors
import Netvisor.Groups.Cleanup
import Netvisor.Services.Completion
import Netvisor.Hosts.ServiceSync
import Netvisor.Hosts.ServiceTransfers
import Netvisor.Crud.Children
import Netvisor.Crud.Filters
import Netvisor.Daemon.SelfReport
import Netvisor.Lib.Moves
import Netvisor.Positions
import Netvisor.Topology.Handles
import Netvisor.Topology.PhysicalLinks
import Netvisor.Daemon.ContainerFacts
import Netvisor.Crud.Tenancy
import Netvisor.Daemon.ConfigStore
