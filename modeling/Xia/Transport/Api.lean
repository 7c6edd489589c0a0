import Xia.Transport.Copy

/-!
# The calls of the socket API

Each handler receives the port of the calling socket (`_sport`) and the fields of the message
that it reads.  A handler that looks its socket up with `get_pointer` and does not check the
result faults when the port has no socket.
-/

namespace Xia

namespace DagInfo

/-- A socket fresh from `Xsocket`. -/
def xsocket (junk : DagInfo) (sockType : Int) : DagInfo :=
  { DagInfo.new junk with
    numRetransmitTries := 0, isAcceptSocket := false, numConnectTries := 0
    sentPkt := fun _ => none, sockType }

/-- The changes of `Xsend` to a connected socket, and the packet that it pushes. -/
def xsend (env : Env) (localAddr : XiaPath) (hlim : UInt8) (payload : List UInt8) (d : DagInfo) :
    Result (DagInfo × Packet) := do
  let d ← d.recalculate localAddr
  let d ← d.completeSrcPath localAddr
  let thdr := TransportHeader.makeDataHeader d.nextSeqnum d.ackNum 0
  let p ← Packet.encap nxtTrn hlim lastNodeDefault (payload.length + TransportHeader.size)
    d.dstPath d.srcPath (thdr ++ payload)
  let (d, copy) ← d.copyPacket env.beyond localAddr p
  -- the packet that had the slot before is dropped, whether it was acknowledged or not
  return ({ d with
    sentPkt := Function.update d.sentPkt (Fin.ofNat maxWinSize d.seqNum.toNat) (some copy)
    seqNum := d.seqNum + 1, nextSeqnum := d.nextSeqnum + 1
    timerOn := true, dataackWaiting := true, numRetransmitTries := 0
    expiry := env.now + ackDelay }, p)

/-- The part of `Xconnect` that sets the socket up, before the tables are updated. -/
def xconnect (env : Env) (localAddr : XiaPath) (dest : Text) (d : DagInfo) : Result DagInfo := do
  let dstPath := (XiaPath.empty.parse dest).2
  let strLocalAddr ← localAddr.unparseRe
  -- a socket that was not bound gets a random SID behind the local address
  let srcPath :=
    if d.sdag = [] then (XiaPath.parseRe (strLocalAddr ++ [' '] ++ randomXid env.rand)).2
    else d.srcPath
  return { d with
    dstPath, srcPath
    isConnected := true, initialized := true
    seqNum := 0, ackNum := 0, base := 0, nextSeqnum := 0, expectedSeqnum := 0
    numConnectTries := d.numConnectTries + 1 }

/-- The rest of `Xconnect`: the SYN packet, its stored copy and the retransmission timer. -/
def sendSyn (env : Env) (localAddr : XiaPath) (hlim : UInt8) (d : DagInfo) :
    Result (DagInfo × Packet) := do
  let payload := cBytes "Connection_request"
  let p ← Packet.encap nxtTrn hlim lastNodeDefault (payload.length + TransportHeader.size)
    d.dstPath d.srcPath (TransportHeader.makeSynHeader 0 (-1) 0 ++ payload)
  let d := { d with timerOn := true, synackWaiting := true, expiry := env.now + ackDelay }
  let (d, synPkt) ← d.copyPacket env.beyond localAddr p
  return ({ d with synPkt := some synPkt }, p)

/-- The socket that `Xaccept` makes of a pending connection. -/
def xaccept (d : DagInfo) : DagInfo :=
  -- `num_connect_tries` and `num_retransmit_tries` stay as the memory had them
  { d with
    seqNum := 0, ackNum := 0, base := 0, nextSeqnum := 0, expectedSeqnum := 0
    isAcceptSocket := true, sentPkt := fun _ => none }

end DagInfo

namespace XTransport

def xsocket (env : Env) (s : XTransport) (sport : UInt16) (sockType : Int) : Handled :=
  .ok ({ s with
    portToDagInfo := s.portToDagInfo.insert sport (DagInfo.xsocket env.junk sockType)
    portToActive := s.portToActive.insert sport true
    hlim := s.hlim.insert sport hlimDefault
    nxtXport := s.nxtXport.insert sport nxtTrn.toNat },
    [.api sport (.result .xsocket 0 0)])

/-- `Xsetsockopt`: option 1 is the hop limit, option 2 the next header of a raw socket. -/
def xsetsockopt (s : XTransport) (sport : UInt16) (optType intOpt : Int) : Handled :=
  let s :=
    if optType = 1 then { s with hlim := s.hlim.insert sport intOpt }
    else if optType = 2 then
      { s with
        nxtXport := s.nxtXport.insert sport intOpt
        xcmpListeners :=
          if intOpt = nxtXcmp.toNat then s.xcmpListeners ++ [sport]
          else s.xcmpListeners.filter (· ≠ sport) }
    else s
  .ok (s, [.api sport (.result .xsetsockopt 0 0)])

/-- What `Xbind` and `XbindPush` have in common: the socket with its new source path and the XID
to file, or the socket with whatever `parse` left in the path. -/
def bindSocket (d : DagInfo) (sdag : Text) : Result (DagInfo × Option Xid) := do
  let (ok, path) := d.srcPath.parse sdag
  if ok then
    -- a path whose first node is an SID is completed later
    let front ← inBounds (← path.nextNodes path.src).head?
    let frontXid ← path.xid (some front)
    let sourceXid ← path.destXid
    return ({ d with
      srcPath := path, isConnected := false, initialized := true, sdag
      fullSrcDag := frontXid.type ≠ htonl Xid.typeSid }, some sourceXid)
  else return ({ d with srcPath := path }, none)

def xbind (s : XTransport) (sport : UInt16) (sdag : Text) : Handled := do
  let d ← deref (s.portToDagInfo.lookup sport)
  match ← bindSocket d sdag with
  | (d, some sourceXid) =>
    let s := { s with xidToPort := s.xidToPort.insert sourceXid sport }
    return ((s.addRoute sourceXid).setDagInfo sport d, [.api sport (.result .xbind 0 0)])
  | (d, none) =>
    return (s.setDagInfo sport d, [.api sport (.result .xbind (-1) eaddrnotavail)])

/-- `XbindPush`: the same with the table of push ports. -/
def xbindPush (s : XTransport) (sport : UInt16) (sdag : Text) : Handled := do
  let d ← deref (s.portToDagInfo.lookup sport)
  match ← bindSocket d sdag with
  | (d, some sourceXid) =>
    let s := { s with xidToPushPort := s.xidToPushPort.insert sourceXid sport }
    return ((s.addRoute sourceXid).setDagInfo sport d, [.api sport (.result .xbindpush 0 0)])
  | (d, none) =>
    return (s.setDagInfo sport d, [.api sport (.result .xbindpush (-1) eaddrnotavail)])

/-- `Xclose`: the socket is torn down by the timer, after a delay. -/
def xclose (env : Env) (s : XTransport) (sport : UInt16) : Handled := do
  let d ← deref (s.portToDagInfo.lookup sport)
  let d := { d with
    timerOn := true, teardownWaiting := true, teardownExpiry := env.now + teardownDelay }
  let s := { s with
    timer := arm s.timer d.teardownExpiry
    xcmpListeners := s.xcmpListeners.filter (· ≠ sport) }
  return (s.setDagInfo sport d, [.api sport (.result .xclose 0 0)])

/-- `Xconnect`.  The result of parsing the destination is not checked. -/
def xconnect (env : Env) (s : XTransport) (sport : UInt16) (ddag : Text) : Handled := do
  -- without a socket the call works on a new `DAGinfo`
  let d := (s.portToDagInfo.lookup sport).getD (DagInfo.new env.junk)
  let d ← d.xconnect env s.localAddr (cStr ddag)
  let sourceXid ← d.srcPath.destXid
  let destinationXid ← d.dstPath.destXid
  let s := { s with
    xidPairToPort := s.xidPairToPort.insert ⟨sourceXid, destinationXid⟩ sport
    xidToPort := s.xidToPort.insert sourceXid sport }
  let s := s.addRoute sourceXid
  let (d, p) ← d.sendSyn env s.localAddr (s.hlimOf sport)
  let s := { s with timer := arm s.timer d.expiry }
  return (s.setDagInfo sport d, [.network p])

/-- `Xaccept`: the oldest pending connection becomes the socket of the calling port. -/
def xaccept (s : XTransport) (sport : UInt16) : Handled := do
  let s := { s with
    hlim := s.hlim.insert sport hlimDefault
    nxtXport := s.nxtXport.insert sport nxtTrn.toNat }
  match s.pendingConnectionBuf with
  | [] => return (s, [.api sport (.result .xaccept (-1) econnaborted)])
  | pending :: rest =>
    let d := pending.xaccept
    let sourceXid ← d.srcPath.destXid
    let destinationXid ← d.dstPath.destXid
    let s := { s with
      xidPairToPort := s.xidPairToPort.insert ⟨sourceXid, destinationXid⟩ sport
      portToActive := s.portToActive.insert sport true
      pendingConnectionBuf := rest }
    return (s.setDagInfo sport d, [.api sport (.accept (← d.dstPath.unparse))])

def xsend (env : Env) (s : XTransport) (sport : UInt16) (payload : List UInt8) : Handled :=
  match s.portToDagInfo.lookup sport with
  | none => .ok (s, [])
  | some d =>
    if d.isConnected then do
      let (d, p) ← d.xsend env s.localAddr (s.hlimOf sport) payload
      let s := { s with timer := arm s.timer d.expiry }
      return (s.setDagInfo sport d, [.network p])
    else .ok (s, [])

/-! ### Datagrams -/

/-- "No local SID bound yet, so bind one": a socket that has no name yet gets a random one. -/
def bindEphemeral (env : Env) (s : XTransport) (sport : UInt16) (d : DagInfo) :
    Result (XTransport × DagInfo) := do
  if d.initialized then return (s, d)
  else
    let strLocalAddr ← s.localAddr.unparseRe
    let srcPath := (XiaPath.parseRe (strLocalAddr ++ [' '] ++ randomXid env.rand)).2
    let sourceXid ← srcPath.destXid
    let s := { s with xidToPort := s.xidToPort.insert sourceXid sport }
    return (s.addRoute sourceXid, { d with srcPath, initialized := true, fullSrcDag := true })

/-- "Recalculate source path" of `Xsendto`, `XrequestChunk` and `XpushChunkto`.  The text has no
type word, so `parse` leaves the path as it is. -/
def reparseSrcPath (localAddr : XiaPath) (d : DagInfo) : Result DagInfo := do
  if (← d.srcPath.unparseRe) = [] then return d
  else return { d with srcPath := (d.srcPath.parse (← d.localSource localAddr)).2 }

/-- `Xsendto`.  A raw socket sends the payload without a transport header. -/
def xsendto (env : Env) (s : XTransport) (sport : UInt16) (ddag : Text) (payload : List UInt8) :
    Handled := do
  let dstPath := (XiaPath.empty.parse (cStr ddag)).2
  let d := (s.portToDagInfo.lookup sport).getD (DagInfo.new env.junk)
  let (s, d) ← s.bindEphemeral env sport d
  let d ← d.completeSrcPath s.localAddr
  let d ← reparseSrcPath s.localAddr d
  let p ←
    if d.sockType = xsocketRaw then
      Packet.encap (UInt8.ofInt (s.nxtXport.get 0 sport)) (s.hlimOf sport) lastNodeDefault
        payload.length dstPath d.srcPath payload
    else
      Packet.encap nxtTrn (s.hlimOf sport) lastNodeDefault
        (payload.length + TransportHeader.size) dstPath d.srcPath
        (TransportHeader.makeDgramHeader 0 ++ payload)
  return (s.setDagInfo sport d, [.network p])

/-! ### Chunks -/

def requestOne (env : Env) (s : XTransport) (sport : UInt16) (payload : List UInt8)
    (dag : Text) : Handled := do
  let dstPath := (XiaPath.empty.parse (cStr dag)).2
  let d := (s.portToDagInfo.lookup sport).getD (DagInfo.new env.junk)
  let (s, d) ← s.bindEphemeral env sport d
  let d ← d.completeSrcPath s.localAddr
  let d ← reparseSrcPath s.localAddr d
  let body := ContentHeader.makeRequestHeader ++ payload
  let p ← Packet.encap nxtCid (s.hlimOf sport) lastNodeDefault body.length dstPath d.srcPath body
  let sourceSid ← d.srcPath.destXid
  let destinationCid ← dstPath.destXid
  let (d, copy) ← d.copyCidReqPacket env.beyond s.localAddr p
  let cidReqExpiry := env.now + ackDelay
  let d := { d with
    xidToCidReqPkt := d.xidToCidReqPkt.insert destinationCid copy
    xidToStatus := d.xidToStatus.insert destinationCid waitingForChunk
    xidToReadReq := d.xidToReadReq.insert destinationCid false
    xidToExpiryTime := d.xidToExpiryTime.insert destinationCid cidReqExpiry
    xidToTimerOn := d.xidToTimerOn.insert destinationCid true }
  let s := { s with
    xidPairToPort := s.xidPairToPort.insert ⟨sourceSid, destinationCid⟩ sport
    timer := arm s.timer cidReqExpiry }
  return (s.setDagInfo sport d, [.network p])

/-- `XrequestChunk`: one request for each address of the list. -/
def xrequestChunk (env : Env) (s : XTransport) (sport : UInt16) (payload : List UInt8) :
    List Text → Handled
  | [] => .ok (s, [])
  | dag :: dags => do
    let (s, out) ← s.requestOne env sport payload dag
    let (s, out') ← xrequestChunk env s sport payload dags
    return (s, out ++ out')

/-- `XreadChunk`: a chunk that has arrived is handed up, otherwise the read is recorded. -/
def xreadChunk (env : Env) (s : XTransport) (sport : UInt16) (dag : Text) : Handled := do
  let dstPath := (XiaPath.empty.parse (cStr dag)).2
  let destinationCid ← dstPath.destXid
  let d ← deref (s.portToDagInfo.lookup sport)
  let d := { d with xidToReadReq := d.xidToReadReq.insert destinationCid true }
  match d.xidToStatus.lookup destinationCid with
  | none => return (s.setDagInfo sport d, [])
  | some status =>
    if status ≠ readyToRead ∧ status ≠ invalidHash then return (s.setDagInfo sport d, [])
    else
      let d := { d with xidToReadReq := d.xidToReadReq.insert destinationCid false }
      let pkt ← deref (d.xidToCidResponsePkt.lookup destinationCid)
      let (d, copy) ← d.copyCidResponsePacket env.beyond s.localAddr pkt
      let srcPath ← copy.srcPath.unparse
      let payload := readBytes env.beyond (← copy.payload) copy.plen.toNat
      let d := { d with xidToCidResponsePkt := d.xidToCidResponsePkt.erase destinationCid }
      return (s.setDagInfo sport d, [.api sport (.readchunk srcPath payload)])

/-- The word that `XgetChunkStatus` adds to its answer for a CID. -/
def statusWord (d : DagInfo) (destinationCid : Xid) : List Text :=
  match d.xidToStatus.lookup destinationCid with
  -- a CID that was not requested
  | none => ["FAILED".toList]
  | some status =>
    if status = waitingForChunk then ["WAITING".toList]
    else if status = readyToRead then ["READY".toList]
    else if status = invalidHash then ["INVALID_HASH".toList]
    else if status = requestFailed then ["FAILED".toList]
    else []

/-- The loop of `XgetChunkStatus`. -/
def chunkStatus (s : XTransport) (sport : UInt16) : List Text → Result (List Text)
  | [] => .ok []
  | dag :: dags => do
    let dstPath := (XiaPath.empty.parse (cStr dag)).2
    let destinationCid ← dstPath.destXid
    let d ← deref (s.portToDagInfo.lookup sport)
    return statusWord d destinationCid ++ (← chunkStatus s sport dags)

def xgetChunkStatus (s : XTransport) (sport : UInt16) (dags : List Text) : Handled := do
  let status ← s.chunkStatus sport dags
  return (s, [.api sport (.chunkstatus dags status (cBytes "CID request status response" ++ [0]))])

/-- "No local SID bound yet, so bind one" of `XpushChunkto`, where the name is that of the host. -/
def bindLocalAddr (s : XTransport) (sport : UInt16) (d : DagInfo) :
    Result (XTransport × DagInfo) := do
  if d.initialized then return (s, d)
  else
    let srcPath := (XiaPath.parseRe (← s.localAddr.unparseRe)).2
    let sourceXid ← srcPath.destXid
    let s := { s with xidToPort := s.xidToPort.insert sourceXid sport }
    return (s.addRoute sourceXid, { d with srcPath, initialized := true, fullSrcDag := true })

/-- The source path of a pushed chunk: the path of the socket followed by the CID. -/
def pushSource (d : DagInfo) (cid : Text) : Result XiaPath := do
  let strSrcPath ← d.srcPath.unparseRe
  return (XiaPath.empty.parse ("RE ".toList ++ strSrcPath ++ " CID:".toList ++ cid)).2

/-- `XpushChunkto`.  Of the four cache parameters only `ttl` is passed on, in the place of the
context. -/
def xpushChunkto (env : Env) (s : XTransport) (sport : UInt16) (cid ddag : Text)
    (payload : List UInt8) (params : CacheParams) : Handled := do
  let dstPath := (XiaPath.empty.parse (cStr ddag)).2
  let d := (s.portToDagInfo.lookup sport).getD (DagInfo.new env.junk)
  let (s, d) ← s.bindLocalAddr sport d
  let d ← d.completeSrcPath s.localAddr
  let d ← reparseSrcPath s.localAddr d
  let cidSrcPath ← pushSource d cid
  let contenth := ContentHeader.encapChunk 0 0 (UInt16.ofNat payload.length)
    (UInt32.ofNat payload.length) ContentHeader.opPush params.ttl.toUInt32
    ContentHeader.ttlDefault ContentHeader.cacheSizeDefault ContentHeader.cachePolicyDefault
  let body := contenth ++ payload
  let p ← Packet.encap nxtCid (s.hlimOf sport) lastNodeDefault body.length dstPath cidSrcPath body
  let sourceCid ← cidSrcPath.destXid
  let destinationSid ← dstPath.destXid
  let s := { s with xidPairToPort := s.xidPairToPort.insert ⟨sourceCid, destinationSid⟩ sport }
  return (s.setDagInfo sport d, [.network p])

/-! ### Changes of the local address -/

def null4id : Option Xid := Xid.parse "IP:0.0.0.0".toList

/-- The address that `Xchangead` builds.  A 4ID that cannot be read has an undefined type, so it is
not the null one. -/
def changeadText (s : XTransport) (ad ip4id : Text) : Text :=
  let hidStr := s.localHid.unparse
  if Xid.parse (cStr ip4id) ≠ null4id then
    "RE ( ".toList ++ cStr ip4id ++ " ) ".toList ++ cStr ad ++ [' '] ++ hidStr
  else "RE ".toList ++ cStr ad ++ [' '] ++ hidStr

/-- `Xchangead`.  The result of `parse` is not checked. -/
def xchangead (s : XTransport) (ad ip4id : Text) : Handled :=
  .ok ({ s with localAddr := (s.localAddr.parse (s.changeadText ad ip4id)).2 }, [])

/-- `write_param`, the write handler `local_addr`. -/
def writeParam (s : XTransport) (conf : Text) : Handled := do
  let (ok, localAddr) := XiaPath.empty.parse conf
  if ok then
    -- the address is printed
    let _ ← localAddr.unparse
    return ({ s with localAddr, localHid := ← localAddr.destXid }, [])
  else return (s, [])

end XTransport

end Xia
