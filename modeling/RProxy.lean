import RProxy.Drain
import RProxy.PassIsolation
import RProxy.StreamIntegrity
import RProxy.Tail
import RProxy.HealthCheck
import RProxy.Dispatch
import RProxy.Teardown
import RProxy.Registration
import RProxy.Lookups
import RProxy.RoundRobin
import RProxy.FifoBuffer
import RProxy.Flush
import RProxy.Delivery
import RProxy.SendLoop
import RProxy.Affinity
import RProxy.PublisherIds
import RProxy.Reentry
import RProxy.Traffic
import RProxy.ZeroCopy
import RProxy.Receive
import RProxy.Interest
import RProxy.Hangup
import RProxy.Casts
import RProxy.Agreement
import RProxy.Outage
import RProxy.Lines
import RProxy.Rotation
import RProxy.LockedQueue
import RProxy.Ping
import RProxy.PacketText
import RProxy.Counters
import RProxy.OrderVerdict
import RProxy.Checksum
import RProxy.AddressKeys
import RProxy.LockFreeQueue
import RProxy.Charged
import RProxy.Shutdown
import RProxy.Heard
import RProxy.StreamSocket
import RProxy.Descriptors
import RProxy.Answered
import RProxy.Builds
import RProxy.SharedPipe
import RProxy.Interleaving
import RProxy.Admission
import RProxy.Granularity
import RProxy.Progress
