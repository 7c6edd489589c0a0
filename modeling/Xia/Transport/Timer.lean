import Xia.Transport.Network

/-!
# The timer

`runTimer` visits every socket.  A socket whose timer is on retransmits its SYN or its data, or
is torn down, by the first of its waiting flags that is due; every socket that is kept then
retransmits the chunk requests that are due.  The next firing time is the earliest expiry found.

The table is changed while it is iterated.  The model visits the ports that the table had at the
start, each of them once.
-/

namespace Xia

namespace DagInfo

/-- The loop of the data retransmission, `n` iterations from sequence number `i` on. -/
def retransmit (beyond : Nat → UInt8) (localAddr : XiaPath) :
    Nat → Nat → DagInfo → Result (DagInfo × List Packet)
  | 0, _, d => .ok (d, [])
  | n + 1, i, d =>
    match d.sentPkt (Fin.ofNat maxWinSize i) with
    | none => retransmit beyond localAddr n (i + 1) d
    | some p => do
      let (d, copy) ← d.copyPacket beyond localAddr p
      let (d, copies) ← retransmit beyond localAddr n (i + 1) d
      return (d, copy :: copies)

def synTimeout (env : Env) (localAddr : XiaPath) (sport : UInt16) (d : DagInfo) :
    Result (DagInfo × List Output) := do
  if d.numConnectTries ≤ maxConnectTries then
    let (d, copy) ← d.copyPacket env.beyond localAddr (← deref d.synPkt)
    return ({ d with
      timerOn := true, synackWaiting := true, expiry := env.now + ackDelay
      numConnectTries := d.numConnectTries + 1 }, [.network copy])
  else
    -- the report to the application is the body of `if (DEBUG)`
    return ({ d with timerOn := false, synackWaiting := false },
      if debug then [.api sport (.text (cBytes "^Connection-failed^"))] else [])

/-- The data that is sent again, unless that was done too often. -/
def resend (env : Env) (localAddr : XiaPath) (d : DagInfo) : Result (DagInfo × List Packet) :=
  if d.numRetransmitTries < maxRetransmitTries then
    d.retransmit env.beyond localAddr (d.nextSeqnum.toNat - d.base.toNat) d.base.toNat
  else .ok (d, [])

/-- Data that was not acknowledged in time.  The timer stops when nothing was sent. -/
def dataTimeout (env : Env) (localAddr : XiaPath) (d : DagInfo) :
    Result (DagInfo × List Output) := do
  let (d, copies) ← d.resend env localAddr
  if copies = [] then
    return ({ d with timerOn := false, dataackWaiting := false, numRetransmitTries := 0 }, [])
  else
    return ({ d with
      timerOn := true, dataackWaiting := true, numRetransmitTries := d.numRetransmitTries + 1
      expiry := env.now + ackDelay }, copies.map .network)

/-- The first part of the loop body of `run_timer`: what is due for the socket.  The last
component is `tear_down`. -/
def timeout (env : Env) (localAddr : XiaPath) (sport : UInt16) (d : DagInfo) :
    Result (DagInfo × List Output × Bool) := do
  if d.timerOn then
    if d.synackWaiting ∧ d.expiry ≤ env.now then
      let (d, out) ← d.synTimeout env localAddr sport
      return (d, out, false)
    else if d.dataackWaiting ∧ d.expiry ≤ env.now then
      let (d, out) ← d.dataTimeout env localAddr
      return (d, out, false)
    else if d.teardownWaiting ∧ d.teardownExpiry ≤ env.now then
      return ({ d with timerOn := false }, [], true)
    else return (d, [], false)
  else return (d, [], false)

/-- One step of the search for the earliest expiry after `now`, where `now` itself means that none
was found yet. -/
def earlier (now earliest expiry : Nat) : Nat :=
  if now < expiry ∧ (expiry < earliest ∨ earliest = now) then expiry else earliest

def cidTimeouts (env : Env) (localAddr : XiaPath) :
    List Xid → DagInfo → Nat → Result (DagInfo × Nat × List Packet)
  | [], d, earliest => .ok (d, earliest, [])
  | requestedCid :: cids, d, earliest => do
    let timerOn ← deref (d.xidToTimerOn.lookup requestedCid)
    let cidReqExpiry ← deref (d.xidToExpiryTime.lookup requestedCid)
    if timerOn ∧ cidReqExpiry ≤ env.now then
      let pkt ← deref (d.xidToCidReqPkt.lookup requestedCid)
      let (d, copy) ← d.copyCidReqPacket env.beyond localAddr pkt
      let cidReqExpiry := env.now + ackDelay
      let d := { d with
        xidToExpiryTime := d.xidToExpiryTime.insert requestedCid cidReqExpiry
        xidToTimerOn := d.xidToTimerOn.insert requestedCid true }
      let (d, earliest, copies) ←
        cidTimeouts env localAddr cids d (earlier env.now earliest cidReqExpiry)
      return (d, earliest, copy :: copies)
    else
      cidTimeouts env localAddr cids d
        (if timerOn then earlier env.now earliest cidReqExpiry else earliest)

/-- The earliest expiry, with the two expiries of the socket. -/
def nextExpiry (now earliest : Nat) (d : DagInfo) : Nat :=
  if d.timerOn then earlier now (earlier now earliest d.expiry) d.teardownExpiry else earliest

end DagInfo

namespace XTransport

/-- The part of a removal that concerns the socket's own XID.  An accepted socket shares it with
the listener.  A path without a destination is passed over. -/
def unfile (s : XTransport) (d : DagInfo) : Result XTransport :=
  if d.srcPath.destinationNode = none then .ok s
  else do
    let sourceXid ← d.srcPath.destXid
    if d.isAcceptSocket then return s
    else
      let s := s.delRoute sourceXid
      return { s with xidToPort := s.xidToPort.erase sourceXid }

/-- The removal of a socket.  The entries of `XIDpairToPort` stay. -/
def tearDown (s : XTransport) (sport : UInt16) (d : DagInfo) : Result XTransport := do
  let s ← s.unfile d
  return { s with
    portToDagInfo := s.portToDagInfo.erase sport
    portToActive := s.portToActive.erase sport
    hlim := s.hlim.erase sport
    nxtXport := s.nxtXport.erase sport
    xcmpListeners := s.xcmpListeners.filter (· ≠ sport) }

/-- The loop body of `run_timer`, with the earliest expiry found so far. -/
def timerSocket (env : Env) (s : XTransport) (sport : UInt16) (earliest : Nat) :
    Result (XTransport × Nat × List Output) := do
  let d ← deref (s.portToDagInfo.lookup sport)
  let (d, out, tear) ← d.timeout env s.localAddr sport
  -- a removed socket is not written back, and its chunk requests are passed over
  if tear then return (← s.tearDown sport d, earliest, out)
  else
    let earliest := d.nextExpiry env.now earliest
    let (d, earliest, copies) ← d.cidTimeouts env s.localAddr d.xidToTimerOn.keys earliest
    return (s.setDagInfo sport d, earliest, out ++ copies.map .network)

/-- The loop of `run_timer`. -/
def timerSockets (env : Env) : List UInt16 → XTransport → Nat →
    Result (XTransport × Nat × List Output)
  | [], s, earliest => .ok (s, earliest, [])
  | sport :: sports, s, earliest => do
    let (s, earliest, out) ← s.timerSocket env sport earliest
    let (s, earliest, out') ← timerSockets env sports s earliest
    return (s, earliest, out ++ out')

/-- `run_timer`.  A timer that fires is no longer scheduled. -/
def runTimer (env : Env) (s : XTransport) : Handled := do
  let (s, earliest, out) ←
    timerSockets env s.portToDagInfo.keys { s with timer := none } env.now
  return (if env.now < earliest then { s with timer := some earliest } else s, out)

end XTransport

end Xia
