import Rsock.NetConnKeepAlive

/-!
# The header an app group shares

All packets of an `IAppGroup` are sent with one header object, `mHead`. Three layers fill it in:
`cconSend` and `sconnSend` write the conversation, `doSendCmd` and `SendNetConnReset` the command, and
`INetConn::Output` the key of the conn the packet leaves on. `SharedHead` is the net side of a group
with the packets that have reached `RConn::Output`, each with the call it comes from.
-/

namespace Rsock

open CMem

/-- A call of one of the sending methods, or anything else that happens to the group. -/
inductive SharedHead.Call where
  /-- `ClientGroup::cconSend` or `SubGroup::sconnSend` of a conn with this conversation. -/
  | connSend (conv : UInt32) (payload : List UInt8) (env : SendEnv)
  | doSendCmd (cmd : UInt8) (payload : List UInt8) (env : SendEnv)
  | sendNetConnReset (payload : List UInt8) (keyOfConnToReset : IntKeyType) (env : SendEnv)
  | other (e : NetSide.Event)

/-- The net side of a group and what it has output. -/
structure SharedHead where
  net : NetSide
  /-- The packets with the calls they come from, latest last. -/
  packets : List (SharedHead.Call × OutPacket) := []

namespace SharedHead

/-- What the call does to the net side. -/
def netCall (net : NetSide) : Call → Except Fault NetSide
  | .connSend conv payload env => net.sendData conv payload env
  | .doSendCmd cmd payload env => net.doSendCmd cmd payload env
  | .sendNetConnReset payload keyOfConnToReset env =>
    net.sendNetConnReset payload keyOfConnToReset env
  | .other e => net.step e

/-- A call, and the packets it has output. -/
def call (s : SharedHead) (c : Call) : Except Fault SharedHead := do
  let net ← netCall s.net c
  let pkts := (net.sends.drop s.net.sends.length).filterMap SentCall.packet
  return { net := net, packets := s.packets ++ pkts.map (c, ·) }

end SharedHead

end Rsock
