import Xia.Machine
import Xia.Transport.Timer

/-!
# The element as a machine

An `Event` is a call of the socket API, a packet on an input port, a handler or the timer; an
`Input` is an event with the environment in which it is handled.  `step` is the dispatch of
`push`, `ProcessAPIPacket` and `run_timer`.
-/

namespace Xia

inductive Event where
  | xsocket (sport : UInt16) (sockType : Int)
  | xsetsockopt (sport : UInt16) (optType intOpt : Int)
  | xbind (sport : UInt16) (sdag : Text)
  | xbindPush (sport : UInt16) (sdag : Text)
  | xclose (sport : UInt16)
  | xconnect (sport : UInt16) (ddag : Text)
  | xaccept (sport : UInt16)
  | xsend (sport : UInt16) (payload : List UInt8)
  | xsendto (sport : UInt16) (ddag : Text) (payload : List UInt8)
  | xrequestChunk (sport : UInt16) (payload : List UInt8) (dags : List Text)
  | xreadChunk (sport : UInt16) (dag : Text)
  | xgetChunkStatus (sport : UInt16) (dags : List Text)
  | xpushChunkto (sport : UInt16) (cid ddag : Text) (payload : List UInt8) (params : CacheParams)
  | xchangead (ad ip4id : Text)
  /-- a packet from the network layer -/
  | network (p : Packet)
  /-- a packet from the cache -/
  | cache (p : Packet)
  /-- a packet of the host configuration protocol -/
  | xhcp (p : Packet)
  /-- a write to the handler `local_addr` -/
  | writeParam (conf : Text)
  | timer

/-- The events that may give the host another address. -/
def Event.readdresses : Event → Bool
  | .xchangead _ _ | .xhcp _ | .writeParam _ => true
  | _ => false

/-- An event and the environment of its handler. -/
structure Input where
  env : Env
  event : Event

/-- SHA-1, which the handler of cache packets applies to a payload. -/
abbrev Sha1 := List UInt8 → Vector UInt8 xidIdLen

def XTransport.handle (sha1 : Sha1) (env : Env) (s : XTransport) : Event → Handled
  | .xsocket sport sockType => s.xsocket env sport sockType
  | .xsetsockopt sport optType intOpt => s.xsetsockopt sport optType intOpt
  | .xbind sport sdag => s.xbind sport sdag
  | .xbindPush sport sdag => s.xbindPush sport sdag
  | .xclose sport => s.xclose env sport
  | .xconnect sport ddag => s.xconnect env sport ddag
  | .xaccept sport => s.xaccept sport
  | .xsend sport payload => s.xsend env sport payload
  | .xsendto sport ddag payload => s.xsendto env sport ddag payload
  | .xrequestChunk sport payload dags => s.xrequestChunk env sport payload dags
  | .xreadChunk sport dag => s.xreadChunk env sport dag
  | .xgetChunkStatus sport dags => s.xgetChunkStatus sport dags
  | .xpushChunkto sport cid ddag payload params =>
    s.xpushChunkto env sport cid ddag payload params
  | .xchangead ad ip4id => s.xchangead ad ip4id
  | .network p => s.processNetworkPacket env p
  | .cache p => s.processCachePacket sha1 env p
  | .xhcp p => s.processXhcpPacket env p
  | .writeParam conf => s.writeParam conf
  | .timer => s.runTimer env

def XTransport.step (sha1 : Sha1) : Machine.Step XTransport Input Fault Output :=
  fun s i => s.handle sha1 i.env i.event

/-- The states that some run from a configured element reaches. -/
def XTransport.Reachable (sha1 : Sha1) (s : XTransport) : Prop :=
  ∃ localAddr junk is out,
    Machine.run (XTransport.step sha1) (XTransport.init localAddr junk) is = .ok (s, out)

/-! ### Hosts for concrete runs -/

def Sha1.zero : Sha1 := fun _ => Vector.replicate xidIdLen 0

def Xid.sid (c : Char) : Xid := (Xid.parse ['S', 'I', 'D', ':', '0', c]).getD Xid.zero

def XTransport.hostAt (addr : String) : XTransport :=
  XTransport.init (XiaPath.parseRe addr.toList).2 DagInfo.zero

/-- The packets that a run sends, as they arrive at the other end. -/
def XTransport.arrivals (s : XTransport) (is : List Input) : List Packet :=
  match Machine.run (XTransport.step Sha1.zero) s is with
  | .error _ => []
  | .ok (_, out) => (netPackets out).map (Packet.arrive 0)

def XTransport.host : XTransport := hostAt "AD:01 HID:02"

def XTransport.peer : XTransport := hostAt "AD:03 HID:04"

namespace XTransport

def connectCall : Input := ⟨.zero 0, .xconnect 1 "RE AD:03 HID:04 SID:0a".toList⟩

def twoSends : List Input :=
  [⟨.zero 0, .xsocket 1 1⟩, connectCall, ⟨.zero 0, .xsend 1 [1]⟩, ⟨.zero 0, .xsend 1 [2]⟩]

/-- The answers of `peer` to these packets: a SYNACK and the ACKs 1 and 2. -/
def answersToTwoSends : List Packet :=
  match host.arrivals twoSends with
  | syn :: data =>
    peer.arrivals ([⟨.zero 0, .xsocket 1 1⟩, ⟨.zero 0, .xbind 1 "RE AD:03 HID:04 SID:0a".toList⟩,
      ⟨.zero 0, .network syn⟩, ⟨.zero 0, .xaccept 2⟩] ++ data.map fun p => ⟨.zero 0, .network p⟩)
  | [] => []

end XTransport

end Xia
