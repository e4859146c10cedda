import Rsock.Lib.Run
import Rsock.RConfig

/-!
# Port lists as objects

`RPortList` (util/RPortList.cpp) keeps, besides its single ports and its ranges, the list of all ports
they stand for. That list is built when a getter finds `mValid` cleared. `FromString` is static and
writes the two lists of the object it is given; what it has written stays there when `std::stoi` throws.
-/

namespace Rsock

open CMem

/-- `class RPortList`, with the list it builds of all its ports. -/
structure CachedPortList extends RPortList where
  mValid : Bool := false
  mRawList : List UInt16 := []
  deriving DecidableEq

namespace RPortList

/-- `buildRPortList`: a pair with `dest` 0 is a single port, others that are not in order are dropped. -/
def buildRPortList (list : RPortList) : List PortPair → RPortList
  | [] => list
  | p :: ps =>
    if p.source < p.dest then
      buildRPortList { list with mValentines := list.mValentines ++ [p] } ps
    else if p.source > p.dest ∧ p.dest = 0 then
      buildRPortList { list with mSingleOnes := list.mSingleOnes ++ [p.source] } ps
    else buildRPortList list ps

/-- The loop of `FromString`: the lists it leaves, and the result or the exception. -/
def parseLoop : (fuel : Nat) → (str : List Char) → RPortList → RPortList × Except Thrown Bool
  | 0, _, list => (list, .ok true)
  | fuel + 1, str, list =>
    match regexSearch str with
    | none => (list, .ok true)
    | some (.single digits suffix) =>
      match stoi digits with
      | .error e => (list, .error e)
      | .ok p => parseLoop fuel suffix { list with mSingleOnes := list.mSingleOnes ++ [UInt16.ofNat p] }
    | some (.range first last suffix) =>
      match stoi first, stoi last with
      | .error e, _ => (list, .error e)
      | .ok _, .error e => (list, .error e)
      | .ok start, .ok stop =>
        if start ≥ stop ∨ start = 0 ∨ stop = 0 then ({}, .ok false)
        else
          let p := ⟨UInt16.ofNat start, UInt16.ofNat stop⟩
          parseLoop fuel suffix { list with mValentines := list.mValentines ++ [p] }

/-- The inner loop of `rebuild`. The counter is an `int`, so that it gets past 65535. -/
def pushRange (dest p : Nat) (raw : List UInt16) : List UInt16 :=
  if p ≤ dest then pushRange dest (p + 1) (raw ++ [UInt16.ofNat p]) else raw
termination_by dest + 1 - p

end RPortList

namespace CachedPortList

/-- `RPortList(list)` -/
def ofPairs (list : List PortPair) : CachedPortList :=
  { toRPortList := RPortList.buildRPortList {} list }

/-- `RPortList::invalidState` -/
def invalidState (c : CachedPortList) : CachedPortList := { c with mValid := false }

/-- `RPortList::AddPort16` -/
def addPort16 (c : CachedPortList) (port : UInt16) : CachedPortList :=
  { c.invalidState with mSingleOnes := c.mSingleOnes ++ [port] }

/-- `AddPortRange`. A range that is not in order trips an assertion, but not in a release build. -/
def addPortRange (nndebug : Bool) (c : CachedPortList) (start stop : UInt16) :
    Except Fault CachedPortList :=
  if start ≥ stop then
    if nndebug then .ok c else .error .assertFailed
  else if c.mValentines.contains ⟨start, stop⟩ then return c
  else return { c.invalidState with mValentines := c.mValentines ++ [⟨start, stop⟩] }

/-- `RPortList::rebuild` -/
def rebuild (c : CachedPortList) : CachedPortList :=
  { c with
    mRawList := c.mValentines.foldl
      (fun raw e => RPortList.pushRange e.dest.toNat e.source.toNat raw) c.mSingleOnes
    mValid := true }

/-- What all three getters do first. -/
def validate (c : CachedPortList) : CachedPortList := if !c.mValid then c.rebuild else c

/-- `RPortList::GetRawList` -/
def getRawList (c : CachedPortList) : List UInt16 × CachedPortList :=
  (c.validate.mRawList, c.validate)

/-- `RPortList::GetSinglePortList`, which makes the list if it is not up to date. -/
def getSinglePortList (c : CachedPortList) : List UInt16 × CachedPortList :=
  (c.validate.mSingleOnes, c.validate)

/-- `RPortList::GetPortRangeList`, which makes the list if it is not up to date. -/
def getPortRangeList (c : CachedPortList) : List PortPair × CachedPortList :=
  (c.validate.mValentines, c.validate)

/-- `FromString(c, s)`: the object it leaves, and the result or the exception. -/
def fromString (c : CachedPortList) (s : String) : CachedPortList × Except Thrown Bool :=
  if s.toList.all fun ch => ch.isDigit || ch == ',' || ch == '-' || ch == ' ' then
    let (list, res) := RPortList.parseLoop s.toList.length s.toList {}
    ({ c with toRPortList := list }, res)
  else ({ c with toRPortList := {} }, .ok false)

/-- A text that `FromString` accepts, whatever the object. -/
structure AcceptedText where
  text : String
  accepted : (({} : CachedPortList).fromString text).2 = .ok true

/-- A call that changes a list. -/
inductive BuildOp where
  | addPort16 (port : UInt16)
  | addPortRange (start stop : UInt16)
  | fromString (s : AcceptedText)

def build (nndebug : Bool) (c : CachedPortList) : BuildOp → Except Fault CachedPortList
  | .addPort16 port => return c.addPort16 port
  | .addPortRange start stop => c.addPortRange nndebug start stop
  | .fromString s => return (c.fromString s.text).1

/-- An operation on some of a number of lists. -/
inductive Op where
  | construct (list : List PortPair)
  | copy (src : Nat)
  | assign (dst src : Nat)
  | addPort16 (i : Nat) (port : UInt16)
  | addPortRange (i : Nat) (start stop : UInt16)
  | fromString (i : Nat) (s : String)
  | getSinglePortList (i : Nat)
  | getPortRangeList (i : Nat)
  | getRawList (i : Nat)

/-- The lists after a call on the list number `i`, if there is one. -/
def update (lists : List CachedPortList) (i : Nat)
    (call : CachedPortList → Except Fault CachedPortList) : Except Fault (List CachedPortList) :=
  match lists[i]? with
  | none => return lists
  | some c => do
    let c ← call c
    return lists.set i c

/-- The lists after an operation. An exception of `FromString` is caught by the caller. -/
def step (nndebug : Bool) (lists : List CachedPortList) (op : Op) :
    Except Fault (List CachedPortList) :=
  match op with
  | .construct list => return lists ++ [ofPairs list]
  | .copy src => return lists ++ lists[src]?.toList
  | .assign dst src =>
    match lists[src]? with
    | none => return lists
    | some c => return lists.set dst c
  | .addPort16 i port => update lists i fun c => return c.addPort16 port
  | .addPortRange i start stop => update lists i fun c => c.addPortRange nndebug start stop
  | .fromString i s => update lists i fun c => return (c.fromString s).1
  | .getSinglePortList i => update lists i fun c => return c.getSinglePortList.2
  | .getPortRangeList i => update lists i fun c => return c.getPortRangeList.2
  | .getRawList i => update lists i fun c => return c.getRawList.2

end CachedPortList

end Rsock
