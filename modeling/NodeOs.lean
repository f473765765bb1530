import NodeOs.Image.EstHosts
import NodeOs.Image.NodedConfig
import NodeOs.Initd.AwaitReady
import NodeOs.Initd.BootSequence
import NodeOs.Initd.DiskUnlock
import NodeOs.Initd.DiskWipe
import NodeOs.Initd.KeyFile
import NodeOs.Initd.PidOne
import NodeOs.Initd.PlainDisks
import NodeOs.Initd.ReadyOrder
import NodeOs.Initd.TpmSessions
import NodeOs.Noded.ApiServer
import NodeOs.Noded.BootstrapKubeconfig
import NodeOs.Noded.BootstrapPair
import NodeOs.Noded.ConcurrentPut
import NodeOs.Noded.ConcurrentWrite
import NodeOs.Noded.Durability
import NodeOs.Noded.KubeletConfig
import NodeOs.Noded.IntentText
import NodeOs.Noded.Isolation
import NodeOs.Noded.KubeletGate
import NodeOs.Noded.Mediation
import NodeOs.Noded.PeerIdentity
import NodeOs.Noded.PresentView
import NodeOs.Noded.RenewalLoop
import NodeOs.Noded.RenewalWindow
import NodeOs.Noded.TpmNode
import NodeOs.Noded.TrustAnchor
import NodeOs.Noded.ConfigDurability
