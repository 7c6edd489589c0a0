import Xia.Transport.Api

/-!
# Packets from the network and from the cache

`processNetworkPacket` finds the socket of a packet and updates it by the type of the packet;
`Verdict` is what is left to do afterwards: the port (`_dport`) and whether the payload is handed
to the application (`sendToApplication`).
-/

namespace Xia

namespace DagInfo

/-- The DATA branch: only the expected packet is taken.  The second component tells whether it
was. -/
def receiveData (srcPath : XiaPath) (seqNum : UInt32) (d : DagInfo) : DagInfo × Bool :=
  if seqNum = d.expectedSeqnum then
    ({ d with expectedSeqnum := d.expectedSeqnum + 1, dstPath := srcPath }, true)
  else ({ d with dstPath := srcPath }, false)

/-- The loop "Clear all Acked packets", `n` iterations from `i` on.  The remainder of a negative
number is negative in C, so the slot then lies outside the array. -/
def clearAcked : Nat → Int → (Fin maxWinSize → Option Packet) →
    Result (Fin maxWinSize → Option Packet)
  | 0, _, sentPkt => .ok sentPkt
  | n + 1, i, sentPkt =>
    let idx := i.tmod maxWinSize
    if idx < 0 then .error .outOfBounds
    else clearAcked n (i + 1) (Function.update sentPkt (Fin.ofNat maxWinSize idx.toNat) none)

/-- The conversion of a `uint32_t` to an `int`. -/
def toInt (n : UInt32) : Int := n.toInt32.toInt

/-- The ACK branch.  The second component is `resetTimer`. -/
def receiveAck (now : Nat) (srcPath : XiaPath) (ackNum : UInt32) (d : DagInfo) :
    Result (DagInfo × Bool) := do
  let sentPkt ← clearAcked (toInt ackNum - toInt d.base).toNat (toInt d.base) d.sentPkt
  let resetTimer : Bool := toInt d.base < toInt ackNum
  -- `base` takes the number of the ACK, also a smaller one
  let d := { d with dstPath := srcPath, sentPkt, base := ackNum }
  if resetTimer then
    if d.base = d.nextSeqnum then
      return ({ d with
        timerOn := false, dataackWaiting := false, numRetransmitTries := 0
        expiry := now + ackDelay }, true)
    else
      return ({ d with timerOn := true, dataackWaiting := true, expiry := now + ackDelay }, true)
  else return (d, false)

/-- The entry that a SYN adds to the pending connections: the paths are exchanged. -/
def pending (junk : DagInfo) (p : Packet) : DagInfo :=
  { DagInfo.new junk with
    sockType := 0, dstPath := p.srcPath, srcPath := p.dstPath
    isConnected := true, initialized := true, seqNum := 0, ackNum := 0 }

end DagInfo

/-- What the element does with a packet object of its own. -/
inductive PacketOp where
  /-- `WritablePacket::make` -/
  | make (o : Nat) (msg : ApiMsg)
  /-- `UDPIPPrep`, which notes the port in the packet itself -/
  | udpIpPrep (o : Nat) (dport : UInt16)
  /-- `output(API_PORT).push`, after which the packet belongs to the next element -/
  | push (o : Nat)
deriving DecidableEq

/-- The port of a packet, and whether its payload goes to the application. -/
structure Verdict where
  dport : UInt16
  sendToApplication : Bool

/-- The outcome of a branch of `ProcessNetworkPacket`. -/
abbrev Branch := Result (XTransport × List Output × Verdict)

namespace XTransport

/-- The answer to a SYN or a DATA packet: the paths are exchanged. -/
def answer (p : Packet) (thdr : List UInt8) (dummy : String) : Result Packet :=
  Packet.encap nxtTrn (UInt8.ofInt hlimDefault) lastNodeDefault
    ((cBytes dummy).length + TransportHeader.size) p.srcPath p.dstPath (thdr ++ cBytes dummy)

/-- A SYN.  The check for a connection that is already pending is disabled (`if (1)`). -/
def receiveSyn (env : Env) (s : XTransport) (p : Packet) (pair : XidPair) (dport : UInt16) :
    Branch := do
  let s := { s with
    pendingConnectionBuf := s.pendingConnectionBuf ++ [DagInfo.pending env.junk p]
    xidPairToConnectPending := s.xidPairToConnectPending.insert pair true }
  let synack ← answer p (TransportHeader.makeSynackHeader 0 0 0) "Connection_granted"
  return (s, [.network synack], ⟨dport, true⟩)

/-- A SYNACK.  Only one that is waited for is reported. -/
def receiveSynack (s : XTransport) (pair : XidPair) : Branch := do
  let dport := s.xidPairToPort.get 0 pair
  let d ← deref (s.portToDagInfo.lookup dport)
  -- the timer is switched off for the other waits too
  return (s.setDagInfo dport { d with timerOn := false, synackWaiting := false }, [],
    ⟨dport, d.synackWaiting⟩)

/-- A DATA packet.  An active port acknowledges every packet. -/
def receiveData (s : XTransport) (p : Packet) (pair : XidPair) (thdr : ExtHeader) : Branch := do
  let dport := s.xidPairToPort.get 0 pair
  if (s.portToActive.lookup dport).isSome then
    let d ← deref (s.portToDagInfo.lookup dport)
    let (d, accepted) := d.receiveData p.srcPath (← TransportHeader.seqNum thdr)
    let ack ← answer p (TransportHeader.makeAckHeader 0 d.expectedSeqnum 0) "cumulative_ACK"
    return (s.setDagInfo dport d, [.network ack], ⟨dport, accepted⟩)
  else return (s, [], ⟨dport, false⟩)

def receiveAck (env : Env) (s : XTransport) (p : Packet) (pair : XidPair) (thdr : ExtHeader) :
    Branch := do
  let dport := s.xidPairToPort.get 0 pair
  if (s.portToActive.lookup dport).isSome then
    let d ← deref (s.portToDagInfo.lookup dport)
    let (d, resetTimer) ← d.receiveAck env.now p.srcPath (← TransportHeader.ackNum thdr)
    let s := if resetTimer then { s with timer := arm s.timer d.expiry } else s
    return (s.setDagInfo dport d, [], ⟨dport, false⟩)
  else return (s, [], ⟨dport, false⟩)

def receiveDgram (s : XTransport) (dport : UInt16) : Branch := do
  let d ← deref (s.portToDagInfo.lookup dport)
  return (s, [], ⟨dport, d.sockType = xsocketDgram⟩)

/-- An XCMP message goes to every listener, with its header. -/
def receiveXcmp (env : Env) (s : XTransport) (p : Packet) : Handled := do
  let srcPath ← p.srcPath.unparse
  let str := p.hdrBytes ++ readBytes env.beyond (← p.payload) p.plen.toNat
  return (s, s.xcmpListeners.map fun port => .api port (.recv srcPath str))

/-- The loop over `xcmp_listeners`, with the one packet `xcmp_pkt`. -/
def pushToListeners (xcmpPkt : Nat) : List UInt16 → List PacketOp
  | [] => []
  | port :: ports => .udpIpPrep xcmpPkt port :: .push xcmpPkt :: pushToListeners xcmpPkt ports

/-- What the XCMP branch of `ProcessNetworkPacket` does with packet objects. -/
def xcmpOps (env : Env) (s : XTransport) (p : Packet) : Result (List PacketOp) := do
  let _ ← p.lastXid
  let _ ← p.srcPath.destXid
  let _ ← p.extHeader
  let srcPath ← p.srcPath.unparse
  let str := p.hdrBytes ++ readBytes env.beyond (← p.payload) p.plen.toNat
  return .make 0 (.recv srcPath str) :: pushToListeners 0 s.xcmpListeners

/-- The end of `ProcessNetworkPacket`: hand the payload to the application. -/
def deliver (env : Env) (s : XTransport) (p : Packet) (thdr : ExtHeader) (v : Verdict) :
    Handled := do
  if v.dport ≠ 0 ∧ v.sendToApplication then
    let d := s.portToDagInfo.get s.noDagInfo v.dport
    -- a socket that was not initialized takes the sender as its peer
    let d' := if d.initialized then d else { d with dstPath := p.srcPath, initialized := true }
    let s := if d.initialized then s else s.setDagInfo v.dport d'
    if p.nxt = 22 ∧ d'.isConnected then
      return (s.setDagInfo v.dport { d' with dstPath := p.srcPath }, [])
    else
      let srcPath ← p.srcPath.unparse
      let payload := readString env.beyond (p.extPayload thdr)
        ((p.plen.toNat : Int) - thdr.hlen.toNat)
      return (s, [.api v.dport (.recv srcPath payload)])
  else return (s, [])

/-- The branches of `ProcessNetworkPacket` by type and packet information. -/
def dispatch (env : Env) (s : XTransport) (p : Packet) (pair : XidPair) (thdr : ExtHeader) :
    Branch := do
  let dport := s.xidToPort.get 0 pair.src
  let type ← TransportHeader.type thdr
  if type = TransportHeader.xsockStream then
    let pktInfo ← TransportHeader.pktInfo thdr
    if pktInfo = TransportHeader.syn then s.receiveSyn env p pair dport
    else if pktInfo = TransportHeader.synack then s.receiveSynack pair
    else if pktInfo = TransportHeader.data then s.receiveData p pair thdr
    else if pktInfo = TransportHeader.ack then s.receiveAck env p pair thdr
    -- a FIN or an unknown packet
    else return (s, [], ⟨dport, true⟩)
  else if type = TransportHeader.xsockDgram then s.receiveDgram dport
  else return (s, [], ⟨dport, true⟩)

def processNetworkPacket (env : Env) (s : XTransport) (p : Packet) : Handled := do
  let destinationXid ← p.lastXid
  let sourceXid ← p.srcPath.destXid
  let thdr ← p.extHeader
  if p.nxt = nxtXcmp then s.receiveXcmp env p
  else
    let (s, out, v) ← s.dispatch env p ⟨destinationXid, sourceXid⟩ thdr
    let (s, out') ← s.deliver env p thdr v
    return (s, out ++ out')

/-! ### Packets from the cache -/

/-- The text that is compared with the CID of a chunk. -/
def hashText (digest : Vector UInt8 xidIdLen) : Text :=
  ['C', 'I', 'D', ':'] ++ digest.toList.flatMap Xid.hexByte

/-- A pushed chunk: the hash is computed, and a wrong one only logged. -/
def receivePush (env : Env) (s : XTransport) (p : Packet) (ch : ExtHeader)
    (destinationSid sourceCid : Xid) : Handled := do
  let payload := readBytes env.beyond (← p.payload) p.plen.toNat
  let dport := s.xidToPushPort.get 0 destinationSid
  if dport = 0 then return (s, [])
  else
    let _ ← deref (s.portToDagInfo.lookup dport)
    let _ ← p.srcPath.unparse
    let ddag ← p.dstPath.unparse
    return (s, [.api dport (.pushchunkto sourceCid.unparse payload (← ContentHeader.cachePolicy ch)
      (← ContentHeader.ttl ch) (← ContentHeader.cacheSize ch) (← ContentHeader.contextId ch)
      (← ContentHeader.length ch) ddag)])

/-- The chunk of a request: the request is forgotten and the status set. -/
def chunkArrived (sourceCid : Xid) (status : Int) (d : DagInfo) : DagInfo :=
  { d with
    xidToCidReqPkt := d.xidToCidReqPkt.erase sourceCid
    xidToExpiryTime := d.xidToExpiryTime.erase sourceCid
    xidToTimerOn := d.xidToTimerOn.erase sourceCid
    xidToStatus := d.xidToStatus.insert sourceCid status }

def processCachePacket (sha1 : List UInt8 → Vector UInt8 xidIdLen) (env : Env) (s : XTransport)
    (p : Packet) : Handled := do
  let destinationSid ← p.dstPath.destXid
  let sourceCid ← p.srcPath.destXid
  let ch ← p.extHeader
  if (← ContentHeader.opcode ch) = ContentHeader.opPush then
    s.receivePush env p ch destinationSid sourceCid
  else
    let dport := s.xidPairToPort.get 0 ⟨destinationSid, sourceCid⟩
    if dport = 0 then return (s, [])
    else
      let d ← deref (s.portToDagInfo.lookup dport)
      let payload := readBytes env.beyond (← p.payload) p.plen.toNat
      let status := if hashText (sha1 payload) = sourceCid.unparse then readyToRead else invalidHash
      let d := chunkArrived sourceCid status d
      if d.xidToReadReq.lookup sourceCid = some true then
        let d := { d with xidToReadReq := d.xidToReadReq.erase sourceCid }
        let srcPath ← p.srcPath.unparse
        return (s.setDagInfo dport d, [.api dport (.readchunk srcPath payload)])
      else
        let (d, copy) ← d.copyCidResponsePacket env.beyond s.localAddr p
        let d := { d with xidToCidResponsePkt := d.xidToCidResponsePkt.insert sourceCid copy }
        return (s.setDagInfo dport d, [])

/-! ### Packets from the configuration protocol -/

/-- The address that `ProcessXhcpPacket` builds: a host whose address is a single XID puts the route
that it is told before it. -/
def xhcpText (env : Env) (s : XTransport) (p : Packet) : Result (Option Text) := do
  let ids := cpSpacevec (← s.localAddr.unparse)
  if ids.length < 3 then
    let newRoute := readString env.beyond (← p.payload) (-1)
    return some (newRoute.map (fun b => Char.ofNat b.toNat) ++ [' '] ++ (← inBounds ids[1]?))
  else return none

def processXhcpPacket (env : Env) (s : XTransport) (p : Packet) : Handled := do
  match ← s.xhcpText env p with
  | none => return (s, [])
  | some newLocalAddr => return ({ s with localAddr := (s.localAddr.parse newLocalAddr).2 }, [])

end XTransport

end Xia
