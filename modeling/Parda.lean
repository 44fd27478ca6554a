import Parda.Lib.Machine
import Parda.Lib.Frontier
import Parda.Mesh.Accounting
import Parda.Mesh.SessionCap
import Parda.Mesh.Convergence
import Parda.Mesh.Conversation
import Parda.Mesh.Delivery
import Parda.Mesh.Expiry
import Parda.Mesh.Retention
import Parda.Mesh.Loss
import Parda.Mesh.Forgery
import Parda.Server.Conservation
import Parda.Server.StagePull
import Parda.Server.Prekeys
import Parda.Mixnode.Stranding
import Parda.Mixnode.PathChoice
import Parda.ClientStore.Erasure
import Parda.ClientStore.Deadline
import Parda.ClientStore.Restart
import Parda.Mixnode.Peel
import Parda.MobileBridge.Link
import Parda.Protocol.SecureMemory
import Parda.Protocol.Pinning
import Parda.Android.Mirroring
import Parda.Android.Fingerprint
import Parda.Gateway.Requests
import Parda.Mesh.Hybrid
import Parda.Mesh.Handoff
import Parda.Server.Wire
import Parda.Gateway.Interference
import Parda.Mesh.Lifetime
import Parda.Mesh.SendOrder
import Parda.ClientStore.History
import Parda.ClientStore.Burn
import Parda.ClientStore.GoneBy
import Parda.Server.Isolation
import Parda.Mixnode.Tokens
import Parda.Server.ArrivalOrder
import Parda.Lib.SignedCast
import Parda.ClientStore.Purge
import Parda.ClientStore.HistoryOrder
import Parda.Mesh.SessionCount
import Parda.Mesh.OverlappingReceive
import Parda.MobileBridge.PlaintextRegistry
import Parda.Mixnode.KeyFile
import Parda.Mesh.StreamProgress
import Parda.Mesh.Propagation
import Parda.Mixnode.Journey
import Parda.Gateway.Security
import Parda.Server.Restart
import Parda.Server.Certificates
import Parda.Lib.Oneshots
import Parda.MobileBridge.Radio
import Parda.MobileBridge.Scan
