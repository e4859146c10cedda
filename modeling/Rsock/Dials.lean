import Rsock.ClientNetManager
import Rsock.Lib.Run

/-!
# The dials of `ClientNetManager`, one by one

The net manager of client/ClientNetManager.cpp with its dials numbered in the order of the calls of
`DialTcpAsync`, so that it can be said which of them a callback or a connect request belongs to. `acts`
is the record of what has happened to each of them. Without numbers and record it is the
`ClientNetManager` of the client (`Dials.erase`).
-/

namespace Rsock

open CMem

/-- What happens to a dial. -/
inductive DialAct where
  | start (req : Nat)
  | fail
  /-- The callback is called, with a conn or with null. -/
  | callback (conn : Option FakeTcp)
  deriving DecidableEq

/-- What `onTcpConnect` is told about a request and finds out about its handle: the conn of
    `createINetConn` and the result of `GetTcpInfo`. -/
structure ConnectResult where
  status : Int := 0
  conn : Option FakeTcp := none
  nret : Int := 0
  tcpInfo : ConnInfo := {}
  now : UInt64

/-- A `ClientNetManager` whose dials have numbers, with the record of them. -/
structure Dials where
  mPending : List (Nat × DialHelper) := []
  mNetworkAlive : Bool := true
  /-- How many requests have been made. -/
  reqs : Nat := 0
  /-- How many dials have been asked for. -/
  dialed : Nat := 0
  /-- The requests that libuv has not completed, each with the number of its dial. -/
  running : List (Nat × Nat) := []
  acts : List (Nat × DialAct) := []

namespace Dials

/-- `ClientNetManager::DialTcpAsync`: the new dial has the number `m.dialed`. -/
def dialTcpAsync (m : Dials) (info : ConnInfo) (now : UInt64) : Dials :=
  let helper : DialHelper := { info := info }
  { m with
    mPending := m.mPending ++ [(m.dialed, { helper with
      nRetry := ClientNetManager.maxRetry, nextRetryMs := now + helper.durationMs })]
    dialed := m.dialed + 1 }

/-- The loop of `flushPending`, with what it does to the dials. -/
def flushLoop (now : UInt64) : List Bool → Nat → List (Nat × DialHelper) →
    List (Nat × DialHelper) × Nat × List (Nat × DialAct)
  | _, reqs, [] => ([], reqs, [])
  | connects, reqs, (id, helper) :: l =>
    if helper.nRetry ≤ 0 then
      let (l, n, acts) := flushLoop now connects reqs l
      (l, n, (id, .callback none) :: acts)
    else if helper.req.isNone ∧ now ≥ helper.nextRetryMs then
      if connects.headD false then
        let (l, n, acts) := flushLoop now connects.tail (reqs + 1) l
        ((id, { helper with req := some reqs }) :: l, n, (id, .start reqs) :: acts)
      else
        let (l, n, acts) := flushLoop now connects.tail reqs l
        ((id, helper.dialFailed now) :: l, n, (id, .fail) :: acts)
    else
      let (l, n, acts) := flushLoop now connects reqs l
      ((id, helper) :: l, n, acts)

/-- The request that an act starts. -/
def started : Nat × DialAct → Option (Nat × Nat)
  | (id, .start req) => some (req, id)
  | _ => none

/-- `ClientNetManager::flushPending` -/
def flushPending (m : Dials) (now : UInt64) (connects : List Bool) : Dials :=
  if m.mNetworkAlive then
    let (pending, reqs, acts) := flushLoop now connects m.reqs m.mPending
    { m with
      mPending := pending
      reqs := reqs
      running := m.running ++ acts.filterMap started
      acts := m.acts ++ acts }
  else m

/-- `onTcpConnect` for the entry with the request, where `before` and `after` are the others. -/
def onTcpConnectEntry (m : Dials) (res : ConnectResult) (before : List (Nat × DialHelper)) (id : Nat)
    (d : DialHelper) (after : List (Nat × DialHelper)) : Dials :=
  let failed : Dials :=
    { m with
      mPending := before ++ (id, { d with req := none }.dialFailed res.now) :: after
      acts := m.acts ++ [(id, .fail)] }
  if res.status ≠ 0 then failed
  else
    match res.conn with
    | none => failed
    | some c =>
      if res.nret ≠ 0 ∨ res.tcpInfo.dp = 0 ∨ res.tcpInfo.dst = 0 then failed
      else { m with mPending := before ++ after, acts := m.acts ++ [(id, .callback (some c))] }

/-- `onTcpConnect` for a request that is running. -/
def onTcpConnect (m : Dials) (req : Nat) (res : ConnectResult) : Dials :=
  let m := { m with running := m.running.filter fun r => r.1 ≠ req }
  match m.mPending.span fun d => d.2.req ≠ some req with
  | (before, (id, d) :: after) => m.onTcpConnectEntry res before id d after
  | (_, []) => m

/-- What the manager is called with. -/
inductive Event where
  | dialTcpAsync (info : ConnInfo) (now : UInt64)
  /-- `connects` are the results of the calls of `NetUtil::ConnectTcp`. -/
  | onFlush (now : UInt64) (connects : List Bool)
  | onNetConnected
  | onNetDisconnected
  | onTcpConnect (req : Nat) (res : ConnectResult)

/-- Only requests that are running are completed. -/
def step (m : Dials) : Event → Except Fault Dials
  | .dialTcpAsync info now => return m.dialTcpAsync info now
  | .onFlush now connects => return m.flushPending now connects
  | .onNetConnected => return { m with mNetworkAlive := true }
  | .onNetDisconnected => return { m with mNetworkAlive := false }
  | .onTcpConnect req res =>
    if m.running.any fun r => r.1 = req then return m.onTcpConnect req res else return m

/-- The manager without the numbers and the record. -/
def erase (m : Dials) : ClientNetManager where
  mPending := m.mPending.map Prod.snd
  mNetworkAlive := m.mNetworkAlive
  reqs := m.reqs

end Dials

end Rsock
