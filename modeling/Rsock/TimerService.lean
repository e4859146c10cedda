import Rsock.Lib.Run
import Rsock.Lib.StdMap

/-!
# The timers

`TimerService` (src/service/TimerService.cpp) calls its observers again and again, each after its own
interval. `mExpireMap` says when each is to be called next. `onFlush` goes through the map while the
observers it calls register and unregister observers, that is, change the map under it. A run is
therefore cut where an observer is called and where it returns: what it does in between are events of
their own. An observer is its address.
-/

namespace Rsock

open CMem

/-- The order of `std::map<uint64_t, ITimerObserver *>`. -/
def lessTs (a b : UInt64) : Prop := a < b

instance : DecidableRel lessTs := fun a b => inferInstanceAs (Decidable (a < b))

instance isStrictWeakOrder_lessTs : IsStrictWeakOrder UInt64 lessTs :=
  StdMap.isStrictWeakOrder_of_rank (f := UInt64.toNat) fun _ _ => UInt64.lt_iff_toNat_lt

/-- `std::map<uint64_t, ITimerObserver *>` -/
abbrev ExpireMap := StdMap UInt64 UInt64 lessTs

/-- `class TimerService` -/
structure TimerService where
  mObserver : List UInt64 := []
  mExpireMap : ExpireMap := StdMap.empty

namespace TimerService

/-- The first of `start`, `start + 1`, ... that is no key of the map. The fuel is the size of the map:
    when as many keys have been tried, the next one is free. -/
def probe (m : ExpireMap) : (fuel : Nat) → (nextTs : UInt64) → UInt64
  | 0, nextTs => nextTs
  | fuel + 1, nextTs => if (m.find? nextTs).isNone then nextTs else probe m fuel (nextTs + 1)

/-- `TimerService::nextExpireTs` -/
def nextExpireTs (m : ExpireMap) (start : UInt64) : UInt64 := probe m m.size start

def containsObserver (s : TimerService) (observer : UInt64) : Bool := s.mObserver.contains observer

section Interval

-- `IntervalMs` of each observer
variable (intervalMs : UInt64 → UInt64)

/-- `RegisterObserver(observer, delay)`. Without a delay it is that of the observer's interval. -/
def registerObserver (s : TimerService) (observer delay now : UInt64) : TimerService × Int :=
  if observer = 0 then (s, -1)
  else if intervalMs observer = 0 then (s, -1)
  else if s.containsObserver observer then (s, -1)
  else
    ({ mObserver := s.mObserver ++ [observer]
       mExpireMap := s.mExpireMap.emplace (nextExpireTs s.mExpireMap (now + delay)) observer }, 0)

/-- The entry that `UnRegisterObserver` erases. -/
def entryOf? (s : TimerService) (observer : UInt64) : Option (UInt64 × UInt64) :=
  s.mExpireMap.entries.find? (·.2 == observer)

/-- `TimerService::UnRegisterObserver` -/
def unRegisterObserver (s : TimerService) (observer : UInt64) : TimerService × Int :=
  let mExpireMap := match s.entryOf? observer with
    | some e => s.mExpireMap.erase e.1
    | none => s.mExpireMap
  if s.containsObserver observer then ({ mExpireMap, mObserver := s.mObserver.erase observer }, 0)
  else ({ s with mExpireMap }, -1)

/-- One entry of the second loop of `onFlush`. -/
def rearmOne (mObserver : List UInt64) (now : UInt64) (m : ExpireMap) (observer : UInt64) : ExpireMap :=
  if mObserver.contains observer ∧ intervalMs observer > 0 then
    m.emplace (nextExpireTs m (now + intervalMs observer)) observer
  else m

def rearm (s : TimerService) (aCopy : ExpireMap) (now : UInt64) : TimerService :=
  { s with
    mExpireMap := (aCopy.entries.map Prod.snd).foldl (rearmOne intervalMs s.mObserver now) s.mExpireMap }

end Interval

/-- Where `onFlush` is. -/
inductive Phase where
  /-- It is not running. -/
  | idle
  /-- It has called the observer at `it`, whose entry is gone if `it` is `none`. -/
  | calling (it : Option UInt64) (observer : UInt64)
  /-- It has left the first loop. -/
  | rearm
  deriving DecidableEq

/-- The service with the variables of `onFlush`. -/
structure Flush where
  service : TimerService := {}
  phase : Phase := .idle
  aCopy : ExpireMap := StdMap.empty
  /-- The time of the latest event. -/
  clock : UInt64 := 0
  /-- The time at which this flush began. -/
  start : UInt64 := 0
  /-- The observers that were due when this flush began and have been registered since. -/
  due : List UInt64 := []
  /-- The observers this flush has called. -/
  called : List UInt64 := []

/-- What can happen to the timer service, with `onFlush` step by step. -/
inductive Event where
  | registerObserver (observer delay now : UInt64)
  | unRegisterObserver (observer : UInt64)
  | onFlush (now : UInt64)
  /-- The observer returns; the next one is looked at. -/
  | returned (now : UInt64)
  /-- The second loop of `onFlush`. -/
  | rearm (now : UInt64)
  deriving DecidableEq

namespace Flush

/-- The head of the first loop. -/
def visit (s : Flush) (it : Option (UInt64 × UInt64)) (now : UInt64) : Flush :=
  match it with
  | none => { s with phase := .rearm }
  | some (ts, observer) =>
    if now ≥ ts then { s with phase := .calling (some ts) observer, called := s.called ++ [observer] }
    else { s with phase := .rearm }

/-- `register` and `unregister` come from outside or from the observer that is called. -/
def open? (s : Flush) : Bool :=
  match s.phase with
  | .idle => true
  | .calling _ _ => true
  | .rearm => false

variable (intervalMs : UInt64 → UInt64)

/-- An event that cannot come in the phase leaves everything as it is. -/
def step (s : Flush) : Event → Except Fault Flush
  | .registerObserver observer delay now =>
    if s.open? then
      return { s with
        service := (s.service.registerObserver intervalMs observer delay now).1
        clock := now }
    else return s
  | .unRegisterObserver observer =>
    if s.open? then
      let phase := match s.phase with
        | .calling it called =>
          -- erasing the entry that is being called leaves `onFlush` with a dangling iterator
          .calling (it.filter fun ts => (s.service.entryOf? observer).map Prod.fst ≠ some ts) called
        | phase => phase
      return { s with
        service := (s.service.unRegisterObserver observer).1
        phase := phase
        due := s.due.filter (· ≠ observer) }
    else return s
  | .onFlush now =>
    match s.phase with
    | .idle =>
      let s := { s with
        clock := now
        start := now
        due := (s.service.mExpireMap.entries.filter fun e : UInt64 × UInt64 => now ≥ e.1).map Prod.snd
        called := [] }
      return s.visit s.service.mExpireMap.entries.head? now
    | _ => return s
  | .returned now =>
    match s.phase with
    | .calling none _ => .error .useAfterFree
    | .calling (some ts) observer =>
      let m := s.service.mExpireMap.erase ts
      let s := { s with
        aCopy := s.aCopy.emplace ts observer
        service := { s.service with mExpireMap := m }
        clock := now }
      return s.visit (m.entries.find? fun e => lessTs ts e.1) now
    | _ => return s
  | .rearm now =>
    match s.phase with
    | .rearm =>
      return { s with
        service := s.service.rearm intervalMs s.aCopy now
        phase := .idle
        aCopy := StdMap.empty
        clock := now }
    | _ => return s

end Flush

end TimerService

end Rsock
