import Rsock.ConnInfo

/-!
# `TcpAckPool`

The records of captured handshakes (net/TcpAckPool.cpp). The capture thread adds them, the event
loop removes, transfers and expires them; every method holds the pool's mutex, so its critical
sections are atomic. `mInfoPool` maps a `TcpInfo` to its expiry time under `TcpCmpFn`, which looks at
the 4-tuple only: `seq` and `ack` live in the *key*.
-/

namespace Rsock

/-- `class TcpAckPool` -/
structure TcpAckPool where
  expireIntervalMs : UInt64
  mInfoPool : StdMap TcpInfo UInt64 TcpCmpFn.Lt := StdMap.empty

namespace TcpAckPool

/-- A call of `AddInfoFromPeer`. -/
structure Add where
  infoFromPeer : TcpInfo
  flags : UInt8
  now : UInt64

/-- `TcpAckPool::AddInfoFromPeer`. Only a SYN is recorded. -/
def addInfoFromPeer (p : TcpAckPool) (a : Add) : TcpAckPool × Bool :=
  if a.infoFromPeer.sp = 0 ∨ a.infoFromPeer.dp = 0 ∨ a.flags &&& thSyn = 0 then (p, false)
  else
    ({ p with mInfoPool := p.mInfoPool.assign a.infoFromPeer (a.now + p.expireIntervalMs) }, true)

/-- `TcpAckPool::RemoveInfo`, the number of removed records included. -/
def removeInfo (p : TcpAckPool) (tcpInfo : TcpInfo) : TcpAckPool × Nat :=
  ({ p with mInfoPool := p.mInfoPool.erase tcpInfo },
    if (p.mInfoPool.find? tcpInfo).isSome then 1 else 0)

/-- `TcpAckPool::getInfoIfExists`: the info with `seq` and `ack` filled in. -/
def getInfoIfExists (p : TcpAckPool) (info : TcpInfo) : Option TcpInfo :=
  (p.mInfoPool.find? info).map fun e => { info with seq := e.1.seq, ack := e.1.ack }

/-- One pass of the loop of `Wait2TransferInfo`, under the lock. -/
def transfer (p : TcpAckPool) (info : TcpInfo) : TcpAckPool × Option TcpInfo :=
  match p.getInfoIfExists info with
  | some info => ((p.removeInfo info).1, some info)
  | none => (p, none)

/-- The calls of `AddInfoFromPeer` the capture thread makes while the event loop waits. -/
def addAll (p : TcpAckPool) (adds : List Add) : TcpAckPool :=
  adds.foldl (fun p a => (p.addInfoFromPeer a).1) p

/-- `TcpAckPool::Wait2TransferInfo`. Each element of `wakes` is what the capture thread adds before
    the condition variable is woken once more; `late` is what it adds before the wait times out. -/
def wait2TransferInfo (p : TcpAckPool) (info : TcpInfo) (wakes : List (List Add))
    (late : List Add) : TcpAckPool × Option TcpInfo :=
  match p.transfer info with
  | (p, some info) => (p, some info)
  | (p, none) =>
    match wakes with
    | [] => (p.addAll late, none)
    | adds :: wakes => (p.addAll adds).wait2TransferInfo info wakes late

/-- `TcpAckPool::OnFlush`: records that have expired are removed. -/
def onFlush (p : TcpAckPool) (timestamp : UInt64) : TcpAckPool :=
  { p with mInfoPool := p.mInfoPool.eraseIf fun e => e.2 ≤ timestamp }

/-! ## The pool as a sequence of critical sections -/

/-- The operations on the pool. -/
inductive Event where
  | addInfoFromPeer (a : Add)
  | removeInfo (tcpInfo : TcpInfo)
  /-- One pass of the loop of `Wait2TransferInfo`. -/
  | transfer (info : TcpInfo)
  | onFlush (timestamp : UInt64)

inductive Answer where
  | added (ok : Bool)
  | removed (n : Nat)
  | transferred (info : Option TcpInfo)
  | flushed
  deriving DecidableEq

def step (p : TcpAckPool) : Event → TcpAckPool × Answer
  | .addInfoFromPeer a => ((p.addInfoFromPeer a).1, .added (p.addInfoFromPeer a).2)
  | .removeInfo info => ((p.removeInfo info).1, .removed (p.removeInfo info).2)
  | .transfer info => ((p.transfer info).1, .transferred (p.transfer info).2)
  | .onFlush timestamp => (p.onFlush timestamp, .flushed)

end TcpAckPool

/-! ## What the pool is for -/

abbrev Tuple := UInt32 × UInt16 × UInt32 × UInt16

/-- What a handshake leaves behind. -/
@[ext]
structure AckRecord where
  seq : UInt32
  ack : UInt32
  expireMs : UInt64
  deriving DecidableEq

/-- A store of handshake records in which the last write for a 4-tuple wins. -/
abbrev AckStore := Tuple → Option AckRecord

namespace AckStore

open TcpAckPool

/-- The store after a critical section, and what it should answer. Records expire `interval` after
    they were written. -/
def step (interval : UInt64) (st : AckStore) : Event → AckStore × Answer
  | .addInfoFromPeer a =>
    if a.infoFromPeer.sp = 0 ∨ a.infoFromPeer.dp = 0 ∨ a.flags &&& thSyn = 0 then
      (st, .added false)
    else
      (Function.update st a.infoFromPeer.tuple
        (some ⟨a.infoFromPeer.seq, a.infoFromPeer.ack, a.now + interval⟩), .added true)
  | .removeInfo info =>
    (Function.update st info.tuple none, .removed (if (st info.tuple).isSome then 1 else 0))
  | .transfer info =>
    (Function.update st info.tuple none,
      .transferred ((st info.tuple).map fun r => { info with seq := r.seq, ack := r.ack }))
  | .onFlush timestamp => (fun t => (st t).filter fun r => timestamp < r.expireMs, .flushed)

end AckStore

end Rsock
