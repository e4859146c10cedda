import Rsock.Lib.Memory
import Rsock.Lib.Run
import Rsock.Lib.StdMap
import Rsock.Lib.Heap
import Rsock.Lib.DeadlineQueue
import Rsock.Lib.Ownership
import Rsock.Comm
import Rsock.TcpStreamSyncConn
import Rsock.EncHead
import Rsock.ConnInfo
import Rsock.RawTcp
import Rsock.RConn
import Rsock.FakeTcp
import Rsock.SockApp
import Rsock.Frame
import Rsock.TcpAckPool
import Rsock.ServerNetManager
import Rsock.NetGroup
import Rsock.IGroup
import Rsock.ConnReset
import Rsock.ClientConns
import Rsock.SubGroup
import Rsock.AppGroup
import Rsock.NetGroupLife
import Rsock.NetRecv
import Rsock.ClientNetManager
import Rsock.Dials
import Rsock.NetConnKeepAlive
import Rsock.SharedHead
import Rsock.TcpPath
import Rsock.RouteService
import Rsock.Handler
import Rsock.TimerService
import Rsock.RConfig
import Rsock.PortCache
import Rsock.Proofs.TcpStreamSyncConnProofs
import Rsock.Proofs.CodecProofs
import Rsock.Proofs.WireProofs
import Rsock.Proofs.RawTcpProofs
import Rsock.Proofs.SockAppProofs
import Rsock.Proofs.RouteServiceProofs
import Rsock.Proofs.HandlerProofs
import Rsock.Proofs.HandlerTimerProofs
import Rsock.Proofs.TimerServiceProofs
import Rsock.Proofs.RConfigProofs
import Rsock.Proofs.PortListProofs
import Rsock.Proofs.KeyGeneratorProofs
import Rsock.Proofs.TcpPathProofs
import Rsock.Proofs.TcpCmpFnProofs
import Rsock.Proofs.TcpAckPoolProofs
import Rsock.Proofs.ServerNetManagerProofs
import Rsock.Proofs.IGroupProofs
import Rsock.Proofs.NetGroupProofs
import Rsock.Proofs.NetGroupLifeProofs
import Rsock.Proofs.NetGroupTablesProofs
import Rsock.Proofs.DoSendProofs
import Rsock.Proofs.NetRecvProofs
import Rsock.Proofs.ClientNetManagerProofs
import Rsock.Proofs.DialsProofs
import Rsock.Proofs.DialsClientProofs
import Rsock.Proofs.NetSideProofs
import Rsock.Proofs.NetConnKeepAliveProofs
import Rsock.Proofs.SharedHeadProofs
import Rsock.Proofs.NewConnProofs
import Rsock.Proofs.ClientConnsProofs
import Rsock.Proofs.SubGroupProofs
import Rsock.Proofs.ConvResetProofs
import Rsock.Proofs.AppGroupProofs
import Rsock.Tunnel
import Rsock.Proofs.TunnelEndsProofs
import Rsock.Proofs.TunnelProofs
import Rsock.Proofs.TunnelAnswerProofs
import Rsock.Json11
import Rsock.Lib.Blocks
import Rsock.Md5
import Rsock.Proofs.Md5Proofs
import Rsock.Proofs.Json11DumpProofs
import Rsock.Proofs.Json11ParseProofs
import Rsock.AppLife
import Rsock.Proofs.AppLifeProofs
import Rsock.Proofs.AppLifeRunProofs
