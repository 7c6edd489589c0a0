import Xia.Transport.Stream

/-!
# Connection requests and the calls that accept them

`requests` lists what the SYNs among the inputs ask for, and `recordAccepted` what the sockets that
`Xaccept` makes are connected to.

A `Server` is the element together with the applications' side of `Xaccept`: the API waits for a
message on the listening socket and then sends `XACCEPT` from a new port.  What it sends does not
name the listener.
-/

namespace Xia

namespace XTransport

def nameOf (path : XiaPath) : Option Xid := path.destXid.toOption

def socketPair (d : DagInfo) : Option XidPair :=
  (nameOf d.srcPath).bind fun x => (nameOf d.dstPath).map fun y => ⟨x, y⟩

/-- The connection that a SYN asks for, seen from its receiver. -/
def synPair (p : Packet) : Option XidPair :=
  (nameOf p.dstPath).bind fun x => (nameOf p.srcPath).map fun y => ⟨x, y⟩

/-- The connections that an event asks for: a SYN asks for one. -/
def requested : Event → List (Option XidPair)
  | .network p => if isSyn p then [synPair p] else []
  | _ => []

/-- The connections that the SYNs of a run ask for, in the order of their arrival. -/
def requests (is : List Input) : List (Option XidPair) := is.flatMap fun i => requested i.event

/-- The number of `Xaccept` calls of a run that find a pending connection, when `waiting` of them
are pending at the start. -/
def acceptCount : Nat → List Input → Nat
  | _, [] => 0
  | waiting, i :: is =>
    min waiting (taken i.event) +
      acceptCount (waiting - taken i.event + (requested i.event).length) is

/-- The socket that a step makes of a pending connection. -/
def acceptedSocket (s : XTransport) (e : Event) (s' : XTransport) : List DagInfo :=
  match e with
  | .xaccept q =>
    if s.pendingConnectionBuf.isEmpty then [] else (s'.portToDagInfo.lookup q).toList
  | _ => []

/-- The connections of the sockets accepted so far, as a record of the run. -/
def recordAccepted (s : XTransport) (i : Input) (s' : XTransport)
    (connections : List (Option XidPair)) : List (Option XidPair) :=
  connections ++ (s.acceptedSocket i.event s').map socketPair

end XTransport

/-! ### Listeners -/

/-- The element, and the notifications of SYNs that no `Xaccept` call has read yet, as the ports of
their listeners. -/
structure Server where
  element : XTransport
  notified : List UInt16

/-- What happens at a server. -/
inductive ServerEvent where
  /-- an input of the element -/
  | input (i : Input)
  /-- the API call `Xaccept` on a listening socket, with the port of the new socket -/
  | accept (env : Env) (listener newPort : UInt16)

/-- `XACCEPT` reaches the element through the API call only. -/
def ServerEvent.isProper : ServerEvent → Bool
  | .input i => XTransport.taken i.event = 0
  | .accept _ _ _ => true

namespace Server

/-- The ports that hear of a SYN. -/
def notifiedPorts (e : Event) (out : List Output) : List UInt16 :=
  match e with
  | .network p =>
    if XTransport.isSyn p then
      out.filterMap fun o => match o with
        | .api port _ => some port
        | .network _ => none
    else []
  | _ => []

/-- One event.  `Xaccept` waits, which changes nothing, as long as its listener was not
notified. -/
def step (sha1 : Sha1) : Machine.Step Server ServerEvent Fault Output
  | sv, .input i =>
    match XTransport.step sha1 sv.element i with
    | .error f => .error f
    | .ok (s, out) => .ok (⟨s, sv.notified ++ notifiedPorts i.event out⟩, out)
  | sv, .accept env listener newPort =>
    if listener ∈ sv.notified then
      match XTransport.step sha1 sv.element ⟨env, .xaccept newPort⟩ with
      | .error f => .error f
      | .ok (s, out) => .ok (⟨s, sv.notified.erase listener⟩, out)
    else .ok (sv, [])

def boundName (s : XTransport) (port : UInt16) : Option Xid :=
  (s.portToDagInfo.lookup port).bind fun d => XTransport.nameOf d.srcPath

/-- A call of `Xaccept` that returned: the name of its listener, and the local name of the new
connection. -/
structure Accepted where
  listener : Option Xid
  connection : Option Xid
deriving DecidableEq

/-- The calls of `Xaccept` that returned so far, as a record of the run. -/
def recordAccepted (sv : Server) (e : ServerEvent) (sv' : Server) (calls : List Accepted) :
    List Accepted :=
  match e with
  | .input _ => calls
  | .accept _ listener newPort =>
    if listener ∈ sv.notified then
      calls ++ (sv.element.acceptedSocket (.xaccept newPort) sv'.element).map fun d =>
        ⟨boundName sv.element listener, XTransport.nameOf d.srcPath⟩
    else calls

/-- The names to which the SYNs of a run are addressed, in the order of their arrival. -/
def requestedNames (es : List ServerEvent) : List (Option Xid) :=
  es.flatMap fun e => match e with
    | .input ⟨_, .network p⟩ => if XTransport.isSyn p then [XTransport.nameOf p.dstPath] else []
    | _ => []

end Server

end Xia
