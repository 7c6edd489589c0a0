import Xia.Router.Elements

/-!
# The state of the transport element

`DagInfo` is the record that `XTRANSPORT` keeps for a socket and `XTransport` the element with
its tables.  A handler of the element is a function from the state, the call's arguments and an
`Env` to the next state and the packets pushed, or to a `Fault`.

The `Env` holds what a handler reads from outside: the clock, the random generator, the contents
of memory that the code reads without having written it.

Sequence numbers, ports and lengths have the code's own widths.  Times are milliseconds.  The
fields of `DAGinfo` that no handler reads (`port`, `nxt`, `last`, `hlim`, `ddag`) are left out.
-/

namespace Xia

def ackDelay : Nat := 300
def teardownDelay : Nat := 240000
def hlimDefault : Int := 250
def lastNodeDefault : Int8 := -1
abbrev maxWinSize : Nat := 100

instance : NeZero maxWinSize := ⟨by decide⟩
def maxConnectTries : Int := 30
def maxRetransmitTries : Int := 100

def xsocketDgram : Int := 2
def xsocketRaw : Int := 3

def requestFailed : Int := 1
def waitingForChunk : Int := 2
def readyToRead : Int := 4
def invalidHash : Int := 8

/-- The macro `DEBUG`. -/
def debug : Bool := false

def eaddrnotavail : Int := 99
def econnaborted : Int := 103

/-- `struct DAGinfo`: one socket. -/
structure DagInfo where
  srcPath : XiaPath
  dstPath : XiaPath
  isConnected : Bool
  isAcceptSocket : Bool
  initialized : Bool
  fullSrcDag : Bool
  sockType : Int
  sdag : Text
  numConnectTries : Int
  numRetransmitTries : Int
  synPkt : Option Packet
  sentPkt : Fin maxWinSize → Option Packet
  xidToCidReqPkt : HashTable Xid Packet
  xidToExpiryTime : HashTable Xid Nat
  xidToTimerOn : HashTable Xid Bool
  xidToStatus : HashTable Xid Int
  xidToReadReq : HashTable Xid Bool
  xidToCidResponsePkt : HashTable Xid Packet
  seqNum : UInt32
  ackNum : UInt32
  base : UInt32
  nextSeqnum : UInt32
  expectedSeqnum : UInt32
  timerOn : Bool
  expiry : Nat
  synackWaiting : Bool
  dataackWaiting : Bool
  teardownWaiting : Bool
  teardownExpiry : Nat

def DagInfo.zero : DagInfo where
  srcPath := .empty
  dstPath := .empty
  isConnected := false
  isAcceptSocket := false
  initialized := false
  fullSrcDag := false
  sockType := 0
  sdag := []
  numConnectTries := 0
  numRetransmitTries := 0
  synPkt := none
  sentPkt := fun _ => none
  xidToCidReqPkt := ∅
  xidToExpiryTime := ∅
  xidToTimerOn := ∅
  xidToStatus := ∅
  xidToReadReq := ∅
  xidToCidResponsePkt := ∅
  seqNum := 0
  ackNum := 0
  base := 0
  nextSeqnum := 0
  expectedSeqnum := 0
  timerOn := false
  expiry := 0
  synackWaiting := false
  dataackWaiting := false
  teardownWaiting := false
  teardownExpiry := 0

/-- What a handler reads from outside the element. -/
structure Env where
  /-- `Timestamp::now()` -/
  now : Nat
  /-- `click_random(0, 0xffffffff)` -/
  rand : UInt32
  /-- the memory in which a new `DAGinfo` is constructed -/
  junk : DagInfo
  /-- the memory behind a packet -/
  beyond : Nat → UInt8

/-- The environment at a time, with all memory filled with zeros. -/
def Env.zero (now : Nat) : Env := ⟨now, 0, DagInfo.zero, fun _ => 0⟩

/-- `DAGinfo::DAGinfo()`: the fields without an initialiser keep what the memory held. -/
def DagInfo.new (junk : DagInfo) : DagInfo :=
  { junk with
    srcPath := .empty, dstPath := .empty
    isConnected := false, initialized := false, fullSrcDag := false
    sdag := []
    xidToCidReqPkt := ∅, xidToExpiryTime := ∅, xidToTimerOn := ∅
    xidToStatus := ∅, xidToReadReq := ∅, xidToCidResponsePkt := ∅
    timerOn := false, expiry := 0
    synackWaiting := false, dataackWaiting := false
    teardownWaiting := false, teardownExpiry := 0 }

/-- The element `XTRANSPORT`, with the local routes that it adds to the route table. -/
structure XTransport where
  /-- `_timer`: when it is scheduled to fire -/
  timer : Option Nat
  localAddr : XiaPath
  localHid : Xid
  xidToPort : HashTable Xid UInt16
  xidPairToPort : HashTable XidPair UInt16
  portToDagInfo : HashTable UInt16 DagInfo
  /-- the default value of `portToDAGinfo`, which `get` returns for a missing port -/
  noDagInfo : DagInfo
  xidToPushPort : HashTable Xid UInt16
  portToActive : HashTable UInt16 Bool
  xidPairToConnectPending : HashTable XidPair Bool
  nxtXport : HashTable UInt16 Int
  hlim : HashTable UInt16 Int
  xcmpListeners : List UInt16
  pendingConnectionBuf : List DagInfo
  routes : HashTable Xid Int

/-- The element after `configure`.  The address that it parses has a destination. -/
def XTransport.init (localAddr : XiaPath) (junk : DagInfo) : XTransport where
  timer := none
  localAddr := localAddr
  localHid := localAddr.destXid.toOption.getD Xid.zero
  xidToPort := ∅
  xidPairToPort := ∅
  portToDagInfo := ∅
  noDagInfo := DagInfo.new junk
  xidToPushPort := ∅
  portToActive := ∅
  xidPairToConnectPending := ∅
  nxtXport := ∅
  hlim := ∅
  xcmpListeners := []
  pendingConnectionBuf := []
  routes := ∅

/-! ### What a handler pushes -/

/-- `XSocketCallType`, for the calls that are answered by `ReturnResult`. -/
inductive CallType where
  | xsocket
  | xsetsockopt
  | xbind
  | xbindpush
  | xclose
  | xaccept
deriving DecidableEq

/-- The cache parameters of an `X_Pushchunkto_Msg`. -/
structure CacheParams where
  contextId : Int32
  ttl : Int32
  cacheSize : Int32
  cachePolicy : Int32
deriving DecidableEq

/-- A message to the socket API. -/
inductive ApiMsg where
  | result (type : CallType) (rc ec : Int)
  | accept (dag : Text)
  | recv (dag : Text) (payload : List UInt8)
  | readchunk (dag : Text) (payload : List UInt8)
  | chunkstatus (dags status : List Text) (payload : List UInt8)
  | pushchunkto (cid : Text) (payload : List UInt8) (cachePolicy ttl cacheSize contextId : UInt32)
      (length : UInt16) (ddag : Text)
  | text (s : List UInt8)
deriving DecidableEq

/-- A packet pushed on an output port of the element. -/
inductive Output where
  | api (port : UInt16) (msg : ApiMsg)
  | network (p : Packet)
deriving DecidableEq

def netPackets (out : List Output) : List Packet :=
  out.filterMap fun o => match o with
    | .network p => some p
    | .api _ _ => none

def apiMsgs (port : UInt16) (out : List Output) : List ApiMsg :=
  out.filterMap fun o => match o with
    | .network _ => none
    | .api q m => if q = port then some m else none

/-- The outcome of a handler. -/
abbrev Handled := Result (XTransport × List Output)

namespace XTransport

/-- `_timer.reschedule_at(expiry)`, unless the timer is scheduled to fire earlier. -/
def arm (timer : Option Nat) (expiry : Nat) : Option Nat :=
  match timer with
  | none => some expiry
  | some t => if expiry ≤ t then some expiry else some t

/-- The XID under which the route table files the route of `x`: the handlers receive it as
text. -/
def routeKey (x : Xid) : Option Xid := Xid.parse x.unparse

/-- `addRoute`: the handler `add` refuses an XID that it has. -/
def addRoute (s : XTransport) (x : Xid) : XTransport :=
  { s with routes :=
      match routeKey x with
      | none => s.routes
      | some k =>
        if (s.routes.lookup k).isSome then s.routes
        else s.routes.insert k destinedForLocalhost }

def delRoute (s : XTransport) (x : Xid) : XTransport :=
  { s with routes :=
      match routeKey x with
      | none => s.routes
      | some k => s.routes.erase k }

/-- `portToDAGinfo.set`. -/
def setDagInfo (s : XTransport) (port : UInt16) (d : DagInfo) : XTransport :=
  { s with portToDagInfo := s.portToDagInfo.insert port d }

theorem lookup_setDagInfo (s : XTransport) (port q : UInt16) (d : DagInfo) :
    (s.setDagInfo port d).portToDagInfo.lookup q =
      if q = port then some d else s.portToDagInfo.lookup q :=
  HashTable.lookup_insert_eq _ _ _ _

/-- `hlim.get(port)`, as `set_hlim` stores it. -/
def hlimOf (s : XTransport) (port : UInt16) : UInt8 := UInt8.ofInt (s.hlim.get 0 port)

end XTransport

end Xia
