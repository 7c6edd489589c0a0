import Xia.Dagaddr.Construct
import Xia.Machine
import Xia.Xrouted.ShortestPath

/-!
# The messages of the routing daemon

A Hello names a neighbour.  A link state advertisement (LSA) names the neighbours of the AD it comes
from and has a sequence number, by which a router knows whether it has seen it; one that is new is
sent on to the others.  The fields of a message end with `^`.  A field that has no end leaves the
variable as it is, and so does the message.

The daemon is a machine whose events are the messages that arrive and the timer.  What `click` says
about the port of a host comes with the message.
-/

namespace Xia

namespace Xrouted

def maxSeqnum : Int := 100000

def calcDijkstraInterval : Nat := 4

def bufferSize : Nat := 1024

/-- What the daemon sends to the others, and what it sets in `click`. -/
inductive Output
  | broadcast (msg : CString)
  | setRoute (xid : CString) (port : Int) (nextHop : CString) (flags : UInt32)
deriving DecidableEq

/-! ### Texts -/

def caret : {c : Char // c ≠ '\x00'} := ⟨'^', by decide⟩

/-- A text of the program. -/
def ofText (s : Text) : CString := s.filterMap fun c => if h : c ≠ '\x00' then some ⟨c, h⟩ else none

def atoi (s : CString) : Int := (Dagaddr.sscanfInt (s.map Subtype.val)).getD 0

/-- `sprintf` with `%d`. -/
def formatInt (n : Int) : CString :=
  ofText ((if n < 0 then ['-'] else []) ++ XiaPath.decimal n.natAbs)

/-- The first field of a message, and what follows it. -/
def nextField (s : CString) : Option (CString × CString) :=
  if caret ∈ s then some (s.takeWhile (· ≠ caret), (s.dropWhile (· ≠ caret)).tail) else none

/-- The value of a variable for which the next field is read, and the rest of the message. -/
def readField (s value : CString) : CString × CString := (nextField s).getD (value, s)

/-- Copying a message to a buffer and sending it to the others. -/
def broadcast (msg : CString) : Except Fault (List Output) :=
  if msg.length < bufferSize then .ok [.broadcast msg] else .error .overrun

/-- A difference of two `int`s. -/
def subInt (a b : Int) : Except Fault Int :=
  if -2 ^ 31 ≤ a - b ∧ a - b < 2 ^ 31 then .ok (a - b) else .error .overflow

/-! ### Link state advertisements -/

/-- What `processLSA` reads of a message before it reads the neighbours. -/
structure Lsa where
  isDualRouter : Int
  destAd : CString
  destHid : CString
  seq : Int
  numNeighbors : Int
  /-- the message from the neighbours on -/
  rest : CString
deriving DecidableEq

/-- Step 0 of `processLSA`. -/
def parseLsa (msg : CString) : Lsa :=
  let (_, s) := readField msg []
  let (routerType, s) := readField s []
  let (destAd, s) := readField s []
  let (destHid, s) := readField s []
  let (lsaSeq, s) := readField s []
  let (numNeighbors, s) := readField s []
  ⟨atoi routerType, destAd, destHid, atoi lsaSeq, atoi numNeighbors, s⟩

/-- The neighbours that are named in a message, so many of them; `neighborAd` is the last one. -/
def readNeighbors : Nat → CString → CString → List CString
  | 0, _, _ => []
  | n + 1, s, neighborAd =>
    let (neighborAd, s) := readField s neighborAd
    let (_, s) := readField s []
    neighborAd :: readNeighbors n s neighborAd

/-- The entry that is made of an LSA.  The fields that the search uses are not initialised. -/
def Lsa.entry (lsa : Lsa) : NodeStateEntry :=
  { (default : NodeStateEntry) with
    dest := lsa.destAd
    seq := lsa.seq
    numNeighbors := lsa.numNeighbors
    neighborList := readNeighbors lsa.numNeighbors.toNat lsa.rest [] }

namespace RouteState

/-- Step 1 of `processLSA`: has the LSA been seen before? -/
def seen (st : RouteState) (lsa : Lsa) : Except Fault Bool :=
  match st.networkTable.lookup lsa.destAd with
  | none => return false
  | some e =>
    if lsa.seq ≤ e.seq then do
      let d ← subInt e.seq lsa.seq
      return d < 10000
    else return false

def updateClickRoutingTable (st : RouteState) : List Output :=
  st.adRouteTable.order.flatMap fun k =>
    let r := st.adRouteTable.get k
    .setRoute r.dest r.port r.nextHop 0xffff ::
      if st.dualRouter = 0 ∧ r.dest = st.dualRouterAd then
        [.setRoute (ofText ['I', 'P', ':', '-']) r.port r.nextHop 0xffff]
      else []

/-- The computation of the routes, which is due at every fourth LSA. -/
def tick (st : RouteState) : Except Fault (RouteState × List Output) :=
  let st := { st with calcDijkstraTicks := st.calcDijkstraTicks + 1 }
  if st.calcDijkstraTicks = calcDijkstraInterval then do
    let st ← st.calcShortestPath
    return ({ st with calcDijkstraTicks := 0 }, st.updateClickRoutingTable)
  else return (st, [])

/-- The part of `processLSA` for an LSA from an AD with a dual router. -/
def markDualRouter (st : RouteState) (lsa : Lsa) : RouteState :=
  if lsa.isDualRouter = 1 then { st with dualRouterAd := lsa.destAd } else st

/-- The part of `processLSA` for an LSA that is new. -/
def acceptLsa (st : RouteState) (msg : CString) (lsa : Lsa) :
    Except Fault (RouteState × List Output) := do
  let (st, out) ← tick { st with
    networkTable := (st.networkTable.erase lsa.destAd).insert lsa.destAd lsa.entry }
  let sent ← broadcast msg
  return (st, out ++ sent)

def processLsa (st : RouteState) (msg : CString) : Except Fault (RouteState × List Output) :=
  let lsa := parseLsa msg
  let st := st.markDualRouter lsa
  if st.myAd = lsa.destAd then return (st, [])
  else do
    let seen ← st.seen lsa
    if seen then return (st, []) else st.acceptLsa msg lsa

/-! ### The other messages -/

/-- `processHello`, with the port of the neighbour. -/
def processHello (st : RouteState) (msg : CString) (port : Int) : RouteState :=
  let (_, s) := readField msg []
  let (neighborAd, s) := readField s []
  let (neighborHid, _) := readField s []
  let st :=
    if neighborAd ∈ st.neighborTable then st
    else { st with
      neighborTable := st.neighborTable.insert neighborAd ⟨neighborAd, neighborHid, 1, port⟩
      numNeighbors := st.numNeighbors + 1 }
  let entry := { (default : NodeStateEntry) with
    dest := st.myAd
    seq := st.lsaSeq
    numNeighbors := st.numNeighbors
    neighborList := st.neighborTable.order.map fun k => (st.neighborTable.get k).ad }
  { st with networkTable := (st.networkTable.erase st.myAd).insert st.myAd entry }

/-- `processHostRegister`, with the port of the host. -/
def processHostRegister (msg : CString) (port : Int) : List Output :=
  let (_, s) := readField msg []
  let (hostHid, _) := readField s []
  [.setRoute hostHid port hostHid 0xffff]

/-- The text that `sendHello` sends. -/
def helloText (st : RouteState) : CString :=
  [ofText ['0'], st.myAd, st.myHid].flatMap (· ++ [caret])

/-- The text that `sendLSA` sends. -/
def lsaText (st : RouteState) : CString :=
  ([ofText ['1'], formatInt st.dualRouter, st.myAd, st.myHid, formatInt st.lsaSeq,
      formatInt st.numNeighbors] ++
    st.neighborTable.order.flatMap fun k =>
      [(st.neighborTable.get k).ad, (st.neighborTable.get k).hid]).flatMap (· ++ [caret])

def sendLsa (st : RouteState) : Except Fault (RouteState × List Output) := do
  let sent ← broadcast st.lsaText
  return ({ st with lsaSeq := (st.lsaSeq + 1) % maxSeqnum }, sent)

def timeoutHandler (st : RouteState) : Except Fault (RouteState × List Output) := do
  if st.helloSeq < st.helloLsaRatio then
    let sent ← broadcast st.helloText
    return ({ st with helloSeq := st.helloSeq + 1 }, sent)
  else if st.helloSeq = st.helloLsaRatio then
    let (st, sent) ← st.sendLsa
    return ({ st with helloSeq := 0 }, sent)
  else return (st, [])

/-! ### The daemon -/

/-- What happens: a message arrives, with the port that `click` has for the host it names, or the
timer goes off. -/
inductive Event
  | message (msg : CString) (port : Int)
  | timeout
deriving DecidableEq

def step : Machine.Step RouteState Event Fault Output
  | st, .timeout => st.timeoutHandler
  | st, .message msg port =>
    match nextField msg with
    | none => .ok (st, [])
    | some (type, _) =>
      if atoi type = 0 then .ok (st.processHello msg port, [])
      else if atoi type = 1 then st.processLsa msg
      else if atoi type = 2 then .ok (st, processHostRegister msg port)
      else .ok (st, [])

/-- The text that `main` takes from its buffer.  The buffer is filled with zeros before `data` is
received; if it holds no zero after that, the text goes on behind it. -/
def recvMessage (data : Text) (beyond : CString) : CString :=
  if data.length < bufferSize ∨ '\x00' ∈ data then ofText (data.takeWhile (· ≠ '\x00'))
  else ofText data ++ beyond

/-- What the daemon waits for: data that are received, not more than its buffer takes, or the
timer. -/
inductive Input
  | received (data : {d : Text // d.length ≤ bufferSize}) (beyond : CString) (port : Int)
  | timeout
deriving DecidableEq

def Input.event : Input → Event
  | .received data beyond port => .message (recvMessage data beyond) port
  | .timeout => .timeout

def inputStep : Machine.Step RouteState Input Fault Output := fun st i => step st i.event

/-- `initRouteState`, with the addresses of the host. -/
def init (myAd myHid : CString) (dualRouter : Bool) : RouteState where
  myAd := myAd
  myHid := myHid
  dualRouter := if dualRouter then 1 else 0
  dualRouterAd := ofText ['N', 'U', 'L', 'L']
  numNeighbors := 0
  lsaSeq := 0
  helloSeq := 0
  helloLsaRatio := 3
  calcDijkstraTicks := 0
  adRouteTable := ∅
  neighborTable := ∅
  networkTable := ∅

end RouteState

end Xrouted

end Xia
