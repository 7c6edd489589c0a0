import Xia.Transport.Equiv.Handlers

/-!
# The stream of a socket

`Stream` is the part of a socket that the reliable transport works with: the counters, the ring of
stored packets and the timer with its three waiting flags.  What else a `DagInfo` holds (paths,
names, chunk requests) has no influence on it.

`Stream.Step now e st st'` lists what can happen to a stream: each constructor is one event, seen
from one socket.  `streamEvent s port e` classifies an event of the element by what it means for
the socket of `port`.
-/

namespace Xia

structure Stream where
  numConnectTries : Int
  numRetransmitTries : Int
  synPkt : Option Packet
  sentPkt : Fin maxWinSize → Option Packet
  seqNum : UInt32
  base : UInt32
  nextSeqnum : UInt32
  expectedSeqnum : UInt32
  timerOn : Bool
  expiry : Nat
  synackWaiting : Bool
  dataackWaiting : Bool
  teardownWaiting : Bool
  teardownExpiry : Nat

def DagInfo.stream (d : DagInfo) : Stream where
  numConnectTries := d.numConnectTries
  numRetransmitTries := d.numRetransmitTries
  synPkt := d.synPkt
  sentPkt := d.sentPkt
  seqNum := d.seqNum
  base := d.base
  nextSeqnum := d.nextSeqnum
  expectedSeqnum := d.expectedSeqnum
  timerOn := d.timerOn
  expiry := d.expiry
  synackWaiting := d.synackWaiting
  dataackWaiting := d.dataackWaiting
  teardownWaiting := d.teardownWaiting
  teardownExpiry := d.teardownExpiry

/-- What an event means for the stream of one socket. -/
inductive StreamEvent where
  | other
  | opened
  | connect
  | accepted
  | close
  | send
  | synack
  | data (seqNum : UInt32)
  | ack (ackNum : UInt32)
  | timer
deriving DecidableEq

namespace Stream

/-- No waiting flag is set. -/
def Idle (st : Stream) : Prop :=
  st.synackWaiting = false ∧ st.dataackWaiting = false ∧ st.teardownWaiting = false

/-- The packets that the next data retransmission meets. -/
def held (st : Stream) : List Packet :=
  (List.range' st.base.toNat (st.nextSeqnum.toNat - st.base.toNat)).filterMap fun k =>
    st.sentPkt (Fin.ofNat maxWinSize k)

def SynDue (now : Nat) (st : Stream) : Prop := st.synackWaiting ∧ st.expiry ≤ now

def DataDue (now : Nat) (st : Stream) : Prop := st.dataackWaiting ∧ st.expiry ≤ now

def TeardownDue (now : Nat) (st : Stream) : Prop := st.teardownWaiting ∧ st.teardownExpiry ≤ now

/-- The data retransmission has nothing to send, or has been tried too often. -/
def Exhausted (st : Stream) : Prop :=
  maxRetransmitTries ≤ st.numRetransmitTries ∨ st.held = []

/-- The outcomes of a timer tick for a stream; `none` if the socket is removed. -/
inductive Tick (now : Nat) (st : Stream) : Option Stream → Prop
  | idle (h : st.timerOn → ¬ st.SynDue now ∧ ¬ st.DataDue now ∧ ¬ st.TeardownDue now) :
      Tick now st (some st)
  | synResend (hon : st.timerOn) (hdue : st.SynDue now)
      (htries : st.numConnectTries ≤ maxConnectTries) :
      Tick now st (some { st with
        expiry := now + ackDelay, numConnectTries := st.numConnectTries + 1 })
  | synGiveUp (hon : st.timerOn) (hdue : st.SynDue now)
      (htries : maxConnectTries < st.numConnectTries) :
      Tick now st (some { st with timerOn := false, synackWaiting := false })
  | dataResend (hon : st.timerOn) (hsyn : ¬ st.SynDue now) (hdue : st.DataDue now)
      (htries : ¬ st.Exhausted) :
      Tick now st (some { st with
        expiry := now + ackDelay, numRetransmitTries := st.numRetransmitTries + 1 })
  | dataStop (hon : st.timerOn) (hsyn : ¬ st.SynDue now) (hdue : st.DataDue now)
      (htries : st.Exhausted) :
      Tick now st (some { st with
        timerOn := false, dataackWaiting := false, numRetransmitTries := 0 })
  | removed (hon : st.timerOn) (hsyn : ¬ st.SynDue now) (hdata : ¬ st.DataDue now)
      (hdue : st.TeardownDue now) : Tick now st none

/-- The stream after an ACK that advances past `base`, or that does not. -/
def acked (now : Nat) (n : UInt32) (ring : Fin maxWinSize → Option Packet) (st : Stream) : Stream :=
  { st with
    sentPkt := ring, base := n
    timerOn := if DagInfo.toInt st.base < DagInfo.toInt n then decide (n ≠ st.nextSeqnum)
      else st.timerOn
    dataackWaiting := if DagInfo.toInt st.base < DagInfo.toInt n then decide (n ≠ st.nextSeqnum)
      else st.dataackWaiting
    numRetransmitTries := if DagInfo.toInt st.base < DagInfo.toInt n ∧ n = st.nextSeqnum then 0
      else st.numRetransmitTries
    expiry := if DagInfo.toInt st.base < DagInfo.toInt n then now + ackDelay else st.expiry }

inductive Step (now : Nat) : StreamEvent → Stream → Option Stream → Prop
  | other (st : Stream) : Step now .other st (some st)
  | opened (st st' : Stream) (hidle : st'.Idle) : Step now .opened st (some st')
  | connect (st : Stream) (copy : Packet) :
      Step now .connect st (some { st with
        seqNum := 0, base := 0, nextSeqnum := 0, expectedSeqnum := 0
        numConnectTries := st.numConnectTries + 1
        timerOn := true, synackWaiting := true, expiry := now + ackDelay, synPkt := some copy })
  | accepted (st st' : Stream) (hidle : st'.Idle) : Step now .accepted st (some st')
  | close (st : Stream) :
      Step now .close st (some { st with
        timerOn := true, teardownWaiting := true, teardownExpiry := now + teardownDelay })
  | send (st : Stream) (copy : Packet) (hcopy : copy.IsData st.nextSeqnum) :
      Step now .send st (some { st with
        sentPkt := Function.update st.sentPkt (Fin.ofNat maxWinSize st.seqNum.toNat) (some copy)
        seqNum := st.seqNum + 1, nextSeqnum := st.nextSeqnum + 1
        timerOn := true, dataackWaiting := true, numRetransmitTries := 0
        expiry := now + ackDelay })
  | synack (st : Stream) :
      Step now .synack st (some { st with timerOn := false, synackWaiting := false })
  | data (st : Stream) (n : UInt32) :
      Step now (.data n) st (some { st with
        expectedSeqnum := if n = st.expectedSeqnum then st.expectedSeqnum + 1
          else st.expectedSeqnum })
  | ack (st : Stream) (n : UInt32) (ring : Fin maxWinSize → Option Packet)
      (hring : DagInfo.clearAcked (DagInfo.toInt n - DagInfo.toInt st.base).toNat
        (DagInfo.toInt st.base) st.sentPkt = .ok ring) :
      Step now (.ack n) st (some (st.acked now n ring))
  | timer (st : Stream) (st' : Option Stream) (h : Tick now st st') : Step now .timer st st'

end Stream

namespace XTransport

/-- The pair by which a packet is demultiplexed and its transport header, if they can be read. -/
def packetKey (p : Packet) : Option (XidPair × ExtHeader) :=
  match p.lastXid, p.srcPath.destXid, p.extHeader with
  | .ok x, .ok y, .ok thdr => some (⟨x, y⟩, thdr)
  | _, _, _ => none

/-- The packet is a stream packet of the given kind that `ProcessNetworkPacket` can read. -/
def isKind (pktInfo : UInt8) (p : Packet) : Bool :=
  match packetKey p with
  | none => false
  | some (_, thdr) =>
    p.nxt ≠ nxtXcmp && TransportHeader.type thdr = .ok TransportHeader.xsockStream &&
      TransportHeader.pktInfo thdr = .ok pktInfo

def isSyn (p : Packet) : Bool := isKind TransportHeader.syn p

def isAck (p : Packet) : Bool := isKind TransportHeader.ack p

/-- The entries that an event adds to the pending connections. -/
def newPending (env : Env) : Event → List DagInfo
  | .network p => if isSyn p then [DagInfo.pending env.junk p] else []
  | _ => []

/-- The number of pending connections that an event takes: an `Xaccept` takes the oldest. -/
def taken : Event → Nat
  | .xaccept _ => 1
  | _ => 0

def isConnected (s : XTransport) (port : UInt16) : Bool :=
  ((s.portToDagInfo.lookup port).map DagInfo.isConnected).getD false

/-- What a packet means for the socket of `port`. -/
def packetEvent (s : XTransport) (port : UInt16) (p : Packet) : StreamEvent :=
  match packetKey p with
  | none => .other
  | some (pair, thdr) =>
    if p.nxt = nxtXcmp ∨ TransportHeader.type thdr ≠ .ok TransportHeader.xsockStream ∨
        s.pairPort pair ≠ port then .other
    else if TransportHeader.pktInfo thdr = .ok TransportHeader.synack then .synack
    else if (s.portToActive.lookup port).isSome then
      if TransportHeader.pktInfo thdr = .ok TransportHeader.data then
        (TransportHeader.seqNum thdr).toOption.elim .other .data
      else if TransportHeader.pktInfo thdr = .ok TransportHeader.ack then
        (TransportHeader.ackNum thdr).toOption.elim .other .ack
      else .other
    else .other

/-- What an event means for the socket of `port`. -/
def streamEvent (s : XTransport) (port : UInt16) : Event → StreamEvent
  | .xsocket q _ => if q = port then .opened else .other
  | .xconnect q _ => if q = port then .connect else .other
  | .xaccept q => if q = port ∧ s.pendingConnectionBuf ≠ [] then .accepted else .other
  | .xclose q => if q = port then .close else .other
  | .xsend q _ => if q = port ∧ s.isConnected port then .send else .other
  | .network p => s.packetEvent port p
  | .timer => .timer
  | .xsetsockopt _ _ _ | .xbind _ _ | .xbindPush _ _ | .xsendto _ _ _ | .xrequestChunk _ _ _
  | .xreadChunk _ _ | .xgetChunkStatus _ _ | .xpushChunkto _ _ _ _ _ | .xchangead _ _
  | .cache _ | .xhcp _ | .writeParam _ => .other

end XTransport

end Xia
