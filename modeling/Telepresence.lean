import Telepresence.TunnelRoundTrip
import Telepresence.ConflictSoundness
import Telepresence.ForwarderRouting
import Telepresence.NoAgent
import Telepresence.ReviewAgreement
import Telepresence.SessionGC
import Telepresence.Finalizers
import Telepresence.FilteredSubscriptions
import Telepresence.Replication
import Telepresence.ParentLinks
import Telepresence.DialWatchers
import Telepresence.AwaitingForwards
import Telepresence.ChannelClosing
import Telepresence.RetiredOnce
import Telepresence.StreamConn
import Telepresence.TcpForwarding
import Telepresence.Router
import Telepresence.DnsCache
import Telepresence.VirtualIPs
import Telepresence.SidecarUpdates
import Telepresence.WorkloadWaiters
import Telepresence.AgentConnections
import Telepresence.EngagementTimes
import Telepresence.SharedSidecar
import Telepresence.ManagerRestart
import Telepresence.AppEnvironment
import Telepresence.Interpolation
import Telepresence.InterceptClients
import Telepresence.CoalescedEvents
import Telepresence.GeneratedNames
import Telepresence.PatchTargets
import Telepresence.ConfigOwners
import Telepresence.PodHandlers
import Telepresence.NodeWatcher
import Telepresence.ClusterInfoStages
import Telepresence.NamespaceSubscribers
import Telepresence.ConfigMapWatcher
import Telepresence.WorkloadSubscriptions
import Telepresence.DnsTransport
import Telepresence.WorkloadListing
import Telepresence.InterceptAccess
import Telepresence.ClientWorkloads
import Telepresence.AgentArrival
import Telepresence.CompatibleAgents
import Telepresence.ProxyVia
import Telepresence.TimedLevels
import Telepresence.RootDaemonSlot
