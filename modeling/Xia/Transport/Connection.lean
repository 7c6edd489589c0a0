import Xia.Transport.Stream

/-!
# Two hosts and a connection between them

The client opens a socket and connects it; the server has a listening socket and accepts once.  From
then on both applications send, both timers fire, and the network delivers, duplicates and loses the
packets of the two hosts, in any order.  `Connection` is the state of this system, with the payloads
that went into `Xsend` and that were handed to the applications, and `Connection.step` its
transitions.

On the way through the network a packet's pointer to the last visited node moves to the destination,
and the hop limit changes (`Packet.arrive`); nothing else does.
-/

namespace Xia

/-! ### The kinds of packets -/

/-- What a stream packet says. -/
inductive Segment where
  | syn
  | synack
  | data (seqNum : UInt32) (payload : List UInt8)
  | ack (ackNum : UInt32)
deriving DecidableEq

def Packet.segment (p : Packet) : Option Segment :=
  match p.extHeader with
  | .error _ => none
  | .ok thdr =>
    if TransportHeader.type thdr ≠ .ok TransportHeader.xsockStream then none
    else if TransportHeader.pktInfo thdr = .ok TransportHeader.syn then some .syn
    else if TransportHeader.pktInfo thdr = .ok TransportHeader.synack then some .synack
    else if TransportHeader.pktInfo thdr = .ok TransportHeader.data then
      (TransportHeader.seqNum thdr).toOption.map fun n => .data n (p.extPayload thdr)
    else if TransportHeader.pktInfo thdr = .ok TransportHeader.ack then
      (TransportHeader.ackNum thdr).toOption.map .ack
    else none

def Packet.dataOf (p : Packet) : Option (Nat × List UInt8) :=
  match p.segment with
  | some (.data n payload) => some (n.toNat, payload)
  | _ => none

def Packet.ackOf (p : Packet) : Option Nat :=
  match p.segment with
  | some (.ack n) => some n.toNat
  | _ => none

/-! ### The system -/

/-- The two ends of a connection. -/
inductive Side where
  | client
  | server
deriving DecidableEq

def Side.peer : Side → Side
  | .client => .server
  | .server => .client

/-- `XIA_MAXBUF`: the API passes at most this much of a buffer to `Xsend`. -/
def xiaMaxbuf : Nat := 15600

/-- The ports of a connection: the client's socket, the server's listening socket and the one that
`Xaccept` makes.  They are UDP ports of different sockets. -/
structure Ports where
  client : UInt16
  listener : UInt16
  server : UInt16
  client_ne : client ≠ 0
  listener_ne : listener ≠ 0
  server_ne : server ≠ 0
  server_ne_listener : server ≠ listener

def Ports.of (ports : Ports) : Side → UInt16
  | .client => ports.client
  | .server => ports.server

/-- The port to which a side's names are bound. -/
def Ports.home (ports : Ports) : Side → UInt16
  | .client => ports.client
  | .server => ports.listener

structure Connection where
  host : Side → XTransport
  /-- the packets on the way to a side -/
  flight : Side → List Packet
  /-- the payloads that a side's application passed to `Xsend` -/
  sent : Side → List (List UInt8)
  /-- the payloads that were handed to a side's application -/
  received : Side → List (List UInt8)
  /-- the server's application has accepted the connection -/
  accepted : Bool

inductive Action where
  /-- the API call `Xsend` on the connected socket -/
  | send (side : Side) (env : Env) (buf : List UInt8)
  /-- the timer of a host fires -/
  | tick (side : Side) (env : Env)
  /-- the server's `Xaccept` -/
  | accept (env : Env)
  /-- a packet arrives at a side, with some hop limit left -/
  | deliver (side : Side) (env : Env) (i : Nat) (hlim : UInt8)
  /-- the network duplicates a packet -/
  | duplicate (side : Side) (i : Nat)
  /-- the network loses a packet -/
  | lose (side : Side) (i : Nat)

/-- The counters `base` and `expected_seqnum` of the socket of a port. -/
def XTransport.counters (s : XTransport) (port : UInt16) : Option (UInt32 × UInt32) :=
  (s.portToDagInfo.lookup port).map fun d => (d.base, d.expectedSeqnum)

def payloadsTo (port : UInt16) (out : List Output) : List (List UInt8) :=
  (apiMsgs port out).filterMap fun m => match m with
    | .recv _ payload => some payload
    | _ => none

namespace Connection

/-- A host handles an event: its packets get on the way to the other side, and its messages to the
connected socket are recorded. -/
def handle (sha1 : Sha1) (ports : Ports) (g : Connection) (side : Side) (env : Env) (e : Event) :
    Result Connection := do
  let (s, out) ← (g.host side).handle sha1 env e
  return { g with
    host := Function.update g.host side s
    flight := Function.update g.flight side.peer (g.flight side.peer ++ netPackets out)
    received := Function.update g.received side
      (g.received side ++ payloadsTo (ports.of side) out) }

/-- `Xsend`: the API returns at once for an empty buffer or a socket that is not connected yet, and
passes at most `XIA_MAXBUF` bytes on. -/
def send (sha1 : Sha1) (ports : Ports) (g : Connection) (side : Side) (env : Env)
    (buf : List UInt8) : Result Connection :=
  if buf = [] ∨ side = .server ∧ g.accepted = false then .ok g
  else do
    let payload := buf.take xiaMaxbuf
    let g ← g.handle sha1 ports side env (.xsend (ports.of side) payload)
    return { g with sent := Function.update g.sent side (g.sent side ++ [payload]) }

/-- `Xaccept` on the server, which is called until it has succeeded once. -/
def accept (sha1 : Sha1) (ports : Ports) (g : Connection) (env : Env) : Result Connection :=
  if g.accepted then .ok g
  else do
    let accepted := !(g.host .server).pendingConnectionBuf.isEmpty
    let g ← g.handle sha1 ports .server env (.xaccept ports.server)
    return { g with accepted }

/-- A packet arrives.  What a SYNACK hands up answers `Xconnect` and is not part of the stream. -/
def deliver (sha1 : Sha1) (ports : Ports) (g : Connection) (side : Side) (env : Env) (i : Nat)
    (hlim : UInt8) : Result Connection :=
  match (g.flight side)[i]? with
  | none => .ok g
  | some p => do
    let g' ← { g with flight := Function.update g.flight side ((g.flight side).eraseIdx i) }.handle
      sha1 ports side env (.network (p.arrive hlim))
    return if p.segment = some .synack then { g' with received := g.received } else g'

def next (sha1 : Sha1) (ports : Ports) (g : Connection) : Action → Result Connection
  | .send side env buf => g.send sha1 ports side env buf
  | .tick side env => g.handle sha1 ports side env .timer
  | .accept env => g.accept sha1 ports env
  | .deliver side env i hlim => g.deliver sha1 ports side env i hlim
  | .duplicate side i => .ok { g with
      flight := Function.update g.flight side (g.flight side ++ (g.flight side)[i]?.toList) }
  | .lose side i => .ok { g with
      flight := Function.update g.flight side ((g.flight side).eraseIdx i) }

/-- The system as a machine, without outputs of its own. -/
def step (sha1 : Sha1) (ports : Ports) : Machine.Step Connection Action Fault Empty :=
  fun g a => (g.next sha1 ports a).map fun g' => (g', [])

/-! ### What is observed -/

/-- A counter of a side's connected socket; 0 as long as there is no such socket. -/
def counter (f : DagInfo → UInt32) (ports : Ports) (g : Connection) (side : Side) : UInt32 :=
  (((g.host side).portToDagInfo.lookup (ports.of side)).map f).getD 0

def base (ports : Ports) : Connection → Side → UInt32 := counter DagInfo.base ports

def nextSeqnum (ports : Ports) : Connection → Side → UInt32 := counter DagInfo.nextSeqnum ports

def expectedSeqnum (ports : Ports) : Connection → Side → UInt32 :=
  counter DagInfo.expectedSeqnum ports

/-- The bounds of go-back-N for the stream that a side sends. -/
structure Bounded (ports : Ports) (g : Connection) (sender : Side) : Prop where
  base_le : g.base ports sender ≤ g.expectedSeqnum ports sender.peer
  expected_le : g.expectedSeqnum ports sender.peer ≤ g.nextSeqnum ports sender
  acks : ∀ p ∈ g.flight sender, ∀ n, p.segment = some (.ack n) →
    n ≤ g.expectedSeqnum ports sender.peer
  data : ∀ p ∈ g.flight sender.peer, ∀ n payload, p.segment = some (.data n payload) →
    n < g.nextSeqnum ports sender

/-! ### The start -/

/-- The calls before the connection is used: `Xsocket`, any number of `Xbind` calls and `Xconnect`
on the client, `Xsocket` and any number of `Xbind` calls on the server. -/
structure Setup where
  ports : Ports
  addr : Side → XiaPath
  junk : Side → DagInfo
  socket : Side → Env × Int
  binds : Side → List (Env × Text)
  connect : Env × Text

/-- `Xsocket` and the `Xbind` calls on a port. -/
def Setup.opening (u : Setup) (side : Side) (port : UInt16) : List Input :=
  ⟨(u.socket side).1, .xsocket port (u.socket side).2⟩ ::
    (u.binds side).map fun b => ⟨b.1, .xbind port b.2⟩

/-- The system right after `Xconnect`: the SYN is on its way. -/
def Setup.start (sha1 : Sha1) (u : Setup) : Result Connection := do
  let (c, out) ← Machine.run (XTransport.step sha1)
    (XTransport.init (u.addr .client) (u.junk .client))
    (u.opening .client u.ports.client ++ [⟨u.connect.1, .xconnect u.ports.client u.connect.2⟩])
  let (s, _) ← Machine.run (XTransport.step sha1)
    (XTransport.init (u.addr .server) (u.junk .server)) (u.opening .server u.ports.listener)
  return {
    host := fun side => match side with
      | .client => c
      | .server => s
    flight := fun side => match side with
      | .client => []
      | .server => netPackets out
    sent := fun _ => []
    received := fun _ => []
    accepted := false }

end Connection

end Xia
