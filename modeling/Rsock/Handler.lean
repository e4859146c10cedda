import Rsock.Lib.DeadlineQueue
import Rsock.Lib.Run

/-!
# The message loop

`Handler` (util/Handler.cpp) runs tasks and delivers messages at the time they are due. Both wait in
queues sorted by that time, and one timer of the event loop is armed for the earliest of them. The
timer is the absolute time in milliseconds for which it is armed; an operation reads the clock once.
-/

namespace Rsock

open CMem DeadlineQueue

namespace Handler

/-- How early, in milliseconds, a waiting entry may be taken for due. -/
def INTERVAL : Int64 := 10

/-- `Handler::Task` -/
structure Task where
  /-- The function, by its name; `none` is the null function. -/
  mTask : Option Nat
  mKey : Int
  expireMs : UInt64 := 0
  deriving DecidableEq

/-- `Task::operator==` -/
def Task.equal (a b : Task) : Bool := a.mKey == b.mKey

/-- `Handler::Message` -/
structure Message where
  what : Int
  arg1 : Int
  msg : String
  obj : Option Nat
  handler : Option Nat := none
  expireMs : UInt64 := 0
  deriving DecidableEq

/-- `Message::operator==`, which does not look at `expireMs`. -/
def Message.equal (a b : Message) : Bool :=
  b.what == a.what && b.arg1 == a.arg1 && b.msg == a.msg && b.obj == a.obj && b.handler == a.handler

/-- What waits in one of the two queues. -/
inductive Entry where
  | task (t : Task)
  | message (m : Message)
  deriving DecidableEq

end Handler

/-- `class Handler` -/
structure Handler where
  /-- `this` -/
  self : Nat
  /-- Whether there is a callback for messages. -/
  mCallback : Bool
  mTaskList : List Handler.Task := []
  mMessageList : List Handler.Message := []
  mNextTimeoutMs : UInt64 := 0
  mOneShotTimer : Option Nat := none
  deriving DecidableEq

namespace Handler

def destroyTimer (h : Handler) : Handler := { h with mOneShotTimer := none }

/-- `uv_timer_start` with the time that is left until `ts`. -/
def startTimer (h : Handler) (ts now : UInt64) : Handler :=
  let df := (ts - now).toInt64
  let df := if df < 0 then 0 else df
  { h with mOneShotTimer := some (now.toNat + df.toInt.toNat) }

/-- `Handler::setupOneShotTimer` -/
def setupOneShotTimer (h : Handler) (ts prev_timeout_ts now : UInt64) : Handler :=
  match h.mOneShotTimer with
  | none => h.startTimer ts now
  | some _ =>
    if ts + INTERVAL.toUInt64 < prev_timeout_ts then h.destroyTimer.startTimer ts now else h

/-- The time that `updateNextMsAndTimer` takes for the next one. A task due at 0 counts as none. -/
def nextMs (h : Handler) : UInt64 :=
  let ts := match h.mTaskList with
    | [] => 0
    | t :: _ => t.expireMs
  match h.mMessageList with
  | [] => ts
  | m :: _ =>
    let ts2 := m.expireMs
    if ts ≠ 0 then if ts < ts2 then ts else ts2 else ts2

/-- `Handler::updateNextMsAndTimer`: the timer is set up for the first that is due. -/
def updateNextMsAndTimer (h : Handler) (now : UInt64) : Handler :=
  if h.mTaskList.isEmpty && h.mMessageList.isEmpty then
    { h with mNextTimeoutMs := 0 }.destroyTimer
  else
    let ts := h.nextMs
    { h.setupOneShotTimer ts h.mNextTimeoutMs now with mNextTimeoutMs := ts }

/-- A time that has passed is the present time. -/
def notBefore (now ts : UInt64) : UInt64 := if ts < now then now else ts

def Task.at (task : Task) (now ts : UInt64) : Task := { task with expireMs := notBefore now ts }

/-- Returns whether the task now waits because of this call. -/
def doPost (h : Handler) (now : UInt64) (task : Task) (ts : UInt64) : Handler × Bool :=
  if task.mTask.isNone then (h, false)
  else if h.mTaskList.any (·.equal task) then (h, false)
  else
    ({ h with mTaskList := insert Task.expireMs (task.at now ts) h.mTaskList
      }.updateNextMsAndTimer now, true)

/-- `Handler::Post` -/
def post (h : Handler) (now : UInt64) (task : Task) : Handler × Bool := h.doPost now task now

/-- `Handler::PostDelayed` -/
def postDelayed (h : Handler) (now : UInt64) (task : Task) (delay : UInt64) : Handler × Bool :=
  h.doPost now task (now + delay)

/-- `Handler::PostAtTime` -/
def postAtTime (h : Handler) (now : UInt64) (task : Task) (ts : UInt64) : Handler × Bool :=
  h.doPost now task ts

/-- A copy of the message for this handler. -/
def own (h : Handler) (msg : Message) (now ts : UInt64) : Message :=
  { msg with expireMs := notBefore now ts, handler := some h.self }

/-- `none` is the exception that the callback is null. -/
def sendMessageAtTime (h : Handler) (now : UInt64) (msg : Message) (ts : UInt64) :
    Option (Handler × Bool) :=
  if h.mCallback then
    let message := h.own msg now ts
    if h.mMessageList.any (·.equal message) then some (h, false)
    else
      some ({ h with mMessageList := insert Message.expireMs message h.mMessageList
        }.updateNextMsAndTimer now, true)
  else none

/-- `Handler::SendMessage` -/
def sendMessage (h : Handler) (now : UInt64) (msg : Message) : Option (Handler × Bool) :=
  h.sendMessageAtTime now msg now

def sendMessageDelayed (h : Handler) (now : UInt64) (msg : Message) (delay : UInt64) :
    Option (Handler × Bool) :=
  h.sendMessageAtTime now msg (now + delay)

/-- `Handler::RemoveTask` -/
def removeTask (h : Handler) (task : Task) : Handler × Bool :=
  if h.mTaskList.any (·.equal task) then
    ({ h with mTaskList := h.mTaskList.eraseP (·.equal task) }, true)
  else (h, false)

/-- `Handler::RemoveMessage` -/
def removeMessage (h : Handler) (msg : Message) : Handler × Bool :=
  if msg.handler.isSome && h.mMessageList.any (·.equal msg) then
    ({ h with mMessageList := h.mMessageList.eraseP (·.equal msg) }, true)
  else (h, false)

/-- `Handler::RemoveAll` -/
def removeAll (h : Handler) : Handler := { h with mTaskList := [], mMessageList := [] }.destroyTimer

section RemoveMessages

variable (what : Int)

/-- `std::swap(l[j], l[j - 1])` -/
def swapDown (l : List Message) (j : Nat) : List Message :=
  match l[j]?, l[j - 1]? with
  | some a, some b => (l.set j b).set (j - 1) a
  | _, _ => l

/-- The inner loop of `RemoveMessages`, from `j` down to `k`. -/
def moveDown (k : Nat) : Nat → List Message → List Message
  | 0, l => l
  | j + 1, l => if k < j + 1 then moveDown k j (swapDown l (j + 1)) else l

/-- The outer loop, with `n` messages to go from position `i` on. -/
def moveToFront : (n i k : Nat) → List Message → List Message
  | 0, _, _, l => l
  | n + 1, i, k, l =>
    if l[i]?.any (·.what == what) then moveToFront n (i + 1) (k + 1) (moveDown k i l)
    else moveToFront n (i + 1) k l

/-- `Handler::RemoveMessages` -/
def removeMessages (h : Handler) : Handler × Bool :=
  let l := moveToFront what (h.mMessageList.length - 1) 1 0 h.mMessageList
  let rest := l.dropWhile (·.what == what)
  ({ h with mMessageList := rest }, rest.length < l.length)

end RemoveMessages

/-- `OnTimeout` takes an entry with this time for due. -/
def due (now expireMs : UInt64) : Bool := (expireMs - now).toInt64 < INTERVAL

/-- One of the two loops of `OnTimeout`: what is due, and what stays in the queue. -/
def scan {α : Type} (expireMs : α → UInt64) (now : UInt64) : List α → List α × List α
  | [] => ([], [])
  | a :: l =>
    let (dues, rest) := scan expireMs now l
    if due now (expireMs a) then (a :: dues, rest) else (dues, a :: rest)

/-- `Handler::OnTimeout`, with the calls it makes. -/
def onTimeout (h : Handler) (now : UInt64) : Except Fault (Handler × List Entry) := do
  let h := h.destroyTimer
  if h.mMessageList.isEmpty && h.mTaskList.isEmpty then return (h, [])
  if h.mNextTimeoutMs > now + INTERVAL.toUInt64 then return (h.updateNextMsAndTimer now, [])
  cassert (h.mNextTimeoutMs ≠ 0)
  let (taskList, tasks) := scan Task.expireMs now h.mTaskList
  let (messageList, messages) := scan Message.expireMs now h.mMessageList
  let h := { h with mTaskList := tasks, mMessageList := messages }.updateNextMsAndTimer now
  return (h, taskList.map .task ++ messageList.map .message)

/-! ## Runs -/

/-- The operations on a handler. -/
inductive Op where
  | post (task : Task)
  | postDelayed (task : Task) (delay : UInt64)
  | postAtTime (task : Task) (ts : UInt64)
  | sendMessage (msg : Message)
  | sendMessageDelayed (msg : Message) (delay : UInt64)
  | sendMessageAtTime (msg : Message) (ts : UInt64)
  | removeTask (task : Task)
  | removeMessage (msg : Message)
  | removeMessages (what : Int)
  | removeAll
  | onTimeout
  deriving DecidableEq

/-- An operation and the time of it. -/
structure Event where
  now : UInt64
  op : Op

/-- What waits, tasks first. -/
def queued (h : Handler) : List Entry := h.mTaskList.map .task ++ h.mMessageList.map .message

/-- The entries a removal is about. -/
def Op.removes : Op → Entry → Bool
  | .removeTask task, .task t => t.equal task
  | .removeMessage msg, .message m => msg.handler.isSome && m.equal msg
  | .removeMessages what, .message m => m.what == what
  | .removeAll, _ => true
  | _, _ => false

/-- The entry that a call asks the handler to keep, or `none` if the call is no post or send. -/
def Op.entry? (h : Handler) (now : UInt64) : Op → Option Entry
  | .post task => some (.task (task.at now now))
  | .postDelayed task delay => some (.task (task.at now (now + delay)))
  | .postAtTime task ts => some (.task (task.at now ts))
  | .sendMessage msg => some (.message (h.own msg now now))
  | .sendMessageDelayed msg delay => some (.message (h.own msg now (now + delay)))
  | .sendMessageAtTime msg ts => some (.message (h.own msg now ts))
  | _ => none

/-- The handler after the operation, whether it accepted an entry, and the calls it made. An
    exception leaves the handler as it was. -/
def call (h : Handler) (e : Event) : Except Fault (Handler × Bool × List Entry) :=
  let posted (r : Handler × Bool) : Handler × Bool × List Entry := (r.1, r.2, [])
  let sent (r : Option (Handler × Bool)) : Handler × Bool × List Entry := posted (r.getD (h, false))
  match e.op with
  | .post task => return posted (h.post e.now task)
  | .postDelayed task delay => return posted (h.postDelayed e.now task delay)
  | .postAtTime task ts => return posted (h.postAtTime e.now task ts)
  | .sendMessage msg => return sent (h.sendMessage e.now msg)
  | .sendMessageDelayed msg delay => return sent (h.sendMessageDelayed e.now msg delay)
  | .sendMessageAtTime msg ts => return sent (h.sendMessageAtTime e.now msg ts)
  | .removeTask task => return ((h.removeTask task).1, false, [])
  | .removeMessage msg => return ((h.removeMessage msg).1, false, [])
  | .removeMessages what => return ((h.removeMessages what).1, false, [])
  | .removeAll => return (h.removeAll, false, [])
  | .onTimeout => do
    let (h, calls) ← h.onTimeout e.now
    return (h, false, calls)

/-- A handler with what has become of the entries it was given. -/
structure History where
  handler : Handler
  /-- The time of the latest operation. -/
  clock : UInt64 := 0
  accepted : List Entry := []
  removed : List Entry := []
  dispatched : List Entry := []

namespace History

/-- `NewHandler` -/
def init (self : Nat) (mCallback : Bool) : History := { handler := { self, mCallback } }

/-- What one event does to the handler, and what it adds to the history. -/
def step (s : History) (e : Event) : Except Fault History := do
  let (h, ok, calls) ← s.handler.call e
  return {
    handler := h
    clock := e.now
    accepted := s.accepted ++ if ok then (e.op.entry? s.handler e.now).toList else []
    removed := s.removed ++ s.handler.queued.filter e.op.removes
    dispatched := s.dispatched ++ calls }

end History

end Handler

end Rsock
