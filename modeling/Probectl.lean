import Probectl.Bus.MemoryFlush
import Probectl.Bus.MemoryAccounting
import Probectl.Agent.BufferTorn
import Probectl.Transport.Durable
import Probectl.Pipeline.Authority
import Probectl.Pipeline.DeadLetters
import Probectl.Chclient.SiloScope
import Probectl.Remediation.Runs
import Probectl.Auth.Succession
import Probectl.Auth.Policies
import Probectl.Auth.ClientIP
import Probectl.License.Anchor
import Probectl.Pipeline.Acknowledged
import Probectl.Bus.Commits
import Probectl.Tsdb.Attribution
import Probectl.Fairness.Refreshes
import Probectl.Fairness.Independence
import Probectl.Breaker.Wedge
import Probectl.Bgp.Sequences
import Probectl.Bgp.Dispatch
import Probectl.Bgp.OriginEvents
import Probectl.Flow.Isolation
import Probectl.Pipeline.Capacity
import Probectl.Audit.Anchor
import Probectl.Audit.WormRuns
import Probectl.Alert.Rows
import Probectl.Alert.Failover
import Probectl.Flow.Accounting
import Probectl.Flow.Scaling
import Probectl.Flow.Times
import Probectl.Flow.Bounded
import Probectl.Cluster.Fencing
import Probectl.Cluster.Lease
import Probectl.Transport.NonceCache
import Probectl.A2a.Sessions
import Probectl.Alert.Operators
import Probectl.Incident.Redelivery
import Probectl.Topology.Indexed
import Probectl.Topology.LowerBound
import Probectl.Topology.Physical
import Probectl.Pipeline.WriteStage
import Probectl.Cost.Budgets
import Probectl.Bgp.Exact
import Probectl.Alert.Keys
import Probectl.Flow.DataSets
