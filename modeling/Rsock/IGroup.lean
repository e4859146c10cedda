import Rsock.Lib.Heap
import Rsock.Lib.Run
import Rsock.RConn

/-!
# Groups of conns

`IConn` (conn/IConn.cpp) counts what it sends and receives (`DataStat`) and judges from the counters,
once per `Flush`, whether it is alive. `IGroup` (conn/IGroup.cpp) keeps conns under their keys, and
its own `Flush` closes those that say they are dead before it flushes the others. What a group calls on
its children is virtual (`ConnOps`): the children of a `ServerGroup` are groups themselves.
-/

namespace Rsock

open CMem

/-! ## `IConn` -/

/-- `IConn::DataStat` -/
structure DataStat where
  prevIn : UInt32 := 0
  prevOut : UInt32 := 0
  currIn : UInt32 := 0
  currOut : UInt32 := 0
  mAlive : Bool := true
  deriving DecidableEq

namespace DataStat

/-- `DataStat::Flush` -/
def flush (s : DataStat) : DataStat :=
  { s with mAlive := s.prevIn != s.currIn && s.prevOut != s.currOut, prevIn := s.currIn,
           prevOut := s.currOut }

def afterSend (s : DataStat) (n : Int) : DataStat :=
  if n > 0 then { s with currOut := s.currOut + 1 } else s

def afterInput (s : DataStat) (n : Int) : DataStat :=
  if n > 0 then { s with currIn := s.currIn + 1 } else s

end DataStat

/-- The methods by which a group judges and refreshes a conn. -/
structure LiveOps (α : Type) where
  alive : α → Except Fault Bool
  flush : α → Except Fault α

/-- The methods a group calls on its children. -/
structure ConnOps (α : Type) extends LiveOps α where
  key : α → String

/-- `class IConn`, with the members `β` of a derived class. -/
structure IConn (β : Type) where
  mKey : String
  mStat : DataStat := {}
  obj : β

namespace IConn

variable {β : Type}

/-- A derived class that overrides neither `Alive` nor `Flush`. -/
def ops : ConnOps (IConn β) where
  key c := c.mKey
  alive c := return c.mStat.mAlive
  flush c := return { c with mStat := c.mStat.flush }

/-- `IConn::Send`, where `n` is the result of `Output`. -/
def send (c : IConn β) (n : Int) : IConn β := { c with mStat := c.mStat.afterSend n }

/-- `IConn::Input`, where `n` is the result of `OnRecv`. -/
def input (c : IConn β) (n : Int) : IConn β := { c with mStat := c.mStat.afterInput n }

end IConn

/-! ## `IGroup` -/

/-- `class IGroup`, with the conns it owns. -/
structure IGroup (α : Type) where
  mKey : String
  mConns : StdMap String Ptr (· < ·) := StdMap.empty
  mHeap : Heap α := {}

namespace IGroup

variable {α : Type}

/-- `IGroup::ConnOfKey` -/
def connOfKey (g : IGroup α) (key : String) : Option Ptr := g.mConns.get? key

/-- `new` and `IGroup::AddConn`. -/
def addConn (ops : ConnOps α) (g : IGroup α) (conn : α) : IGroup α :=
  let (h, p) := g.mHeap.alloc conn
  { g with mHeap := h, mConns := g.mConns.emplace (ops.key conn) p }

/-- `IGroup::RemoveConn` -/
def removeConn (ops : ConnOps α) (g : IGroup α) (p : Ptr) : Except Fault (IGroup α) := do
  let conn ← g.mHeap.deref p
  return { g with mConns := g.mConns.erase (ops.key conn) }

/-- `IGroup::CloseConn`, with which the conn is deleted. -/
def closeConn (ops : ConnOps α) (g : IGroup α) (p : Ptr) : Except Fault (IGroup α) := do
  let conn ← g.mHeap.deref p
  cassert (ops.key conn ≠ g.mKey)
  cassert (g.connOfKey (ops.key conn) = some p)
  let g ← g.removeConn ops p
  let h ← g.mHeap.free p
  return { g with mHeap := h }

/-- The conns `IGroup::Flush` finds dead. -/
def fails (ops : LiveOps α) (h : Heap α) : List (String × Ptr) → Except Fault (List Ptr)
  | [] => return []
  | (_, p) :: l => do
    let conn ← h.deref p
    let alive ← ops.alive conn
    let ps ← fails ops h l
    return if alive then ps else p :: ps

/-- The second loop of `IGroup::Flush`. -/
def flushConns (ops : LiveOps α) (h : Heap α) : List (String × Ptr) → Except Fault (Heap α)
  | [] => return h
  | (_, p) :: l => do
    let conn ← h.deref p
    let conn ← ops.flush conn
    flushConns ops (h.store p conn) l

/-- `IGroup::Flush` -/
def flush (ops : ConnOps α) (g : IGroup α) : Except Fault (IGroup α) := do
  let ps ← fails ops.toLiveOps g.mHeap g.mConns.entries
  let g ← ps.foldlM (closeConn ops) g
  let h ← flushConns ops.toLiveOps g.mHeap g.mConns.entries
  return { g with mHeap := h }

/-- The loop of `IGroup::Alive`. -/
def anyAlive (ops : LiveOps α) (h : Heap α) : List (String × Ptr) → Except Fault Bool
  | [] => return false
  | (_, p) :: l => do
    let conn ← h.deref p
    if ← ops.alive conn then return true else anyAlive ops h l

/-- `IGroup::Alive`: one of the conns is. -/
def alive (ops : ConnOps α) (g : IGroup α) : Except Fault Bool :=
  anyAlive ops.toLiveOps g.mHeap g.mConns.entries

/-- What happens to the children of a group between two calls of its `Flush`. -/
inductive Call (β : Type) where
  | addConn (key : String) (obj : β)
  | send (p : Ptr) (n : Int)
  | input (p : Ptr) (n : Int)
  /-- The group drops a conn for a reason of its own, such as a reset. -/
  | closeConn (p : Ptr)

variable {β : Type}

/-- What one call of the group does. -/
def call (g : IGroup (IConn β)) : Call β → Except Fault (IGroup (IConn β))
  | .addConn key obj => return g.addConn IConn.ops { mKey := key, obj := obj }
  | .send p n => do
    let c ← g.mHeap.deref p
    return { g with mHeap := g.mHeap.store p (c.send n) }
  | .input p n => do
    let c ← g.mHeap.deref p
    return { g with mHeap := g.mHeap.store p (c.input n) }
  | .closeConn p => g.closeConn IConn.ops p

/-- What can happen to a group. -/
inductive Event (β : Type) where
  | call (c : Call β)
  | flush

/-- What one event of the group does. -/
def step (g : IGroup (IConn β)) : Event β → Except Fault (IGroup (IConn β))
  | .call c => g.call c
  | .flush => g.flush IConn.ops

end IGroup

/-! ## Groups of groups -/

/-- `class IAppGroup`, for what decides whether it is alive: its conns and a net group. -/
structure IAppGroup (ν β : Type) extends IGroup (IConn β) where
  mFakeNetGroup : ν

namespace IAppGroup

variable {ν β : Type}

/-- `IAppGroup::Alive` -/
def alive (net : LiveOps ν) (g : IAppGroup ν β) : Except Fault Bool :=
  if g.mConns.size ≠ 0 then do
    if ← net.alive g.mFakeNetGroup then g.toIGroup.alive IConn.ops else return false
  else net.alive g.mFakeNetGroup

/-- `IAppGroup::Flush` -/
def flush (net : LiveOps ν) (g : IAppGroup ν β) : Except Fault (IAppGroup ν β) := do
  let conns ← g.toIGroup.flush IConn.ops
  let n ← net.flush g.mFakeNetGroup
  return { toIGroup := conns, mFakeNetGroup := n }

def ops (net : LiveOps ν) : ConnOps (IAppGroup ν β) where
  key g := g.mKey
  alive := alive net
  flush := flush net

end IAppGroup

/-- The `SubGroup`s of a `ServerGroup`. -/
abbrev SubGroups (ν β : Type) := IGroup (IAppGroup ν β)

namespace SubGroups

variable {ν β : Type}

/-- What can happen to a `ServerGroup` with its `SubGroup`s. -/
inductive Event (ν β : Type) where
  /-- A new `SubGroup`. -/
  | newConn (groupId : String) (net : ν)
  | call (p : Ptr) (c : IGroup.Call β)
  /-- Anything that changes the net group. -/
  | netGroup (p : Ptr) (net : ν)
  /-- `ServerGroup::Flush` -/
  | flush

/-- What one event does to the server's groups. -/
def step (net : LiveOps ν) (s : SubGroups ν β) : Event ν β → Except Fault (SubGroups ν β)
  | .newConn groupId n =>
    return s.addConn (IAppGroup.ops net) { mKey := groupId, mFakeNetGroup := n }
  | .call p c => do
    let g ← s.mHeap.deref p
    let conns ← g.toIGroup.call c
    return { s with mHeap := s.mHeap.store p { g with toIGroup := conns } }
  | .netGroup p n => do
    let g ← s.mHeap.deref p
    return { s with mHeap := s.mHeap.store p { g with mFakeNetGroup := n } }
  | .flush => IGroup.flush (IAppGroup.ops net) s

end SubGroups

end Rsock
